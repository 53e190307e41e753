import AssemblyBrowser.Proofs.Codec.Constants
import AssemblyBrowser.Proofs.Codec.Heaps
import AssemblyBrowser.Proofs.Images.Descriptions
import AssemblyBrowser.Proofs.Images.Drafts

/-!
# Descriptions as rows

How the rows of an image encode the description of a module. A row names what
belongs to it by indexes: texts and blobs by where they stand in their heaps,
members by the first of them, types and other rows by coded indexes. Where a
text or a blob stands, and what else is in the heaps, is left open. So is the
order of the rows that only connect others.
-/

namespace AssemblyBrowser

/-- Rows that encode items, one for each. -/
def Written {α : Type} (rows : List (List Nat)) (form : Nat → α → List Nat → Prop)
    (items : List α) : Prop :=
  List.Forall₂ (fun item cells => form item.2 item.1 cells) (numbered items) rows

/-- Rows that encode items in any order. -/
def WrittenInAnyOrder {α : Type} (rows : List (List Nat)) (form : α → List Nat → Prop)
    (items : List α) : Prop :=
  ∃ ordered : List α, ordered.Perm items ∧ Written rows (fun _ => form) ordered

def ScopeDraft.cell : ScopeDraft → Nat
  | .thisModule => CodedIndex.resolutionScope.encode 0 1
  | .assembly row => CodedIndex.resolutionScope.encode 2 row
  | .reference row => CodedIndex.resolutionScope.encode 3 row

/-- The cell of a base type. -/
def baseCell : Option Token → Nat
  | none => 0
  | some token =>
      CodedIndex.typeDefOrRef.encode (if token.table = TableId.typeDef.number then 0 else 1)
        token.row

/-- The bit that stands for the role of an accessor of a property. -/
def AccessorRole.propertyBits : AccessorRole → Nat
  | setter => 0x01
  | getter => 0x02
  | _ => 0x04

/-- The flags and the blob that a reference has for a key. -/
inductive KeyForm : KeyDraft → (flags : Nat) → List UInt8 → Prop where
  | absent {flags : Nat} (h : flags.testBit 0 = false) : KeyForm .absent flags []
  | token {flags : Nat} {bytes : Vector UInt8 8} (h : flags.testBit 0 = false) :
      KeyForm (.token bytes) flags bytes.toList
  | whole {flags : Nat} {key : List UInt8} (h : flags.testBit 0 = true) :
      KeyForm (.whole key) flags key

/-- The lists of the types that have properties, with the rows of the types. -/
def ModuleDraft.propertyLists (module : ModuleDraft) : List (Nat × List PropertyDraft) :=
  (numbered module.types).filterMap fun (type, row) =>
    if type.properties.isEmpty then none else some (row, type.properties)

namespace ImageDraft

/-- A text stands at an index of the heap of texts. -/
def TextAt (draft : ImageDraft) (index : Nat) (text : String) : Prop :=
  Heap.TextAt draft.strings index text

/-- A blob stands at an index of the heap of blobs. -/
def BlobAt (draft : ImageDraft) (index : Nat) (blob : List UInt8) : Prop :=
  Heap.BlobAt draft.blobs index blob

instance (draft : ImageDraft) (index : Nat) (text : String) : Decidable (draft.TextAt index text) :=
  inferInstanceAs (Decidable (Heap.TextAt ..))

instance (draft : ImageDraft) (index : Nat) (blob : List UInt8) :
    Decidable (draft.BlobAt index blob) :=
  inferInstanceAs (Decidable (Heap.BlobAt ..))

/-!
## The row of an item
-/

inductive ModuleRow (draft : ImageDraft) (module : ModuleDraft) : List Nat → Prop where
  | mk {generation name baseId deltaId : Nat} (hname : draft.TextAt name module.name) :
      ModuleRow draft module [generation, name, 1, baseId, deltaId]

inductive AssemblyRow (draft : ImageDraft) (assembly : AssemblyDraft) : List Nat → Prop where
  | mk {algorithm flags key name culture : Nat} (hkey : draft.BlobAt key assembly.publicKey)
      (hname : draft.TextAt name assembly.name) (hculture : draft.TextAt culture assembly.culture) :
      AssemblyRow draft assembly
        [algorithm, assembly.version.major, assembly.version.minor, assembly.version.build,
          assembly.version.revision, flags, key, name, culture]

inductive ReferenceRow (draft : ImageDraft) (reference : ReferenceDraft) : List Nat → Prop where
  | mk {flags key name culture hash : Nat} {keyBytes : List UInt8}
      (hform : KeyForm reference.key flags keyBytes) (hkey : draft.BlobAt key keyBytes)
      (hname : draft.TextAt name reference.name)
      (hculture : draft.TextAt culture reference.culture) :
      ReferenceRow draft reference
        [reference.version.major, reference.version.minor, reference.version.build,
          reference.version.revision, flags, key, name, culture, hash]

inductive TypeReferenceRow (draft : ImageDraft) (type : TypeReferenceDraft) : List Nat → Prop where
  | mk {name namespaceName : Nat} (hname : draft.TextAt name type.name)
      (hnamespace : draft.TextAt namespaceName type.namespaceName) :
      TypeReferenceRow draft type [type.scope.cell, name, namespaceName]

inductive TypeRow (draft : ImageDraft) (types : List TypeDraft) (row : Nat) (type : TypeDraft) :
    List Nat → Prop where
  | mk {name namespaceName : Nat} (hname : draft.TextAt name type.name)
      (hnamespace : draft.TextAt namespaceName type.namespaceName) :
      TypeRow draft types row type
        [type.flags, name, namespaceName, baseCell type.base, firstRow TypeDraft.fields types row,
          firstRow TypeDraft.methods types row]

inductive NestingRow (nesting : Nat × Nat) : List Nat → Prop where
  | mk : NestingRow nesting [nesting.1, nesting.2]

inductive FieldRow (draft : ImageDraft) (field : FieldDraft) : List Nat → Prop where
  | mk {name blob : Nat} {signature : List UInt8} (hname : draft.TextAt name field.name)
      (hform : FieldForm field.type signature) (hblob : draft.BlobAt blob signature) :
      FieldRow draft field [field.flags, name, blob]

inductive MethodRow (draft : ImageDraft) (methods : List (Nat × MethodDraft)) (row : Nat)
    (method : MethodDraft) : List Nat → Prop where
  | mk {address codeFlags name blob : Nat} {signature : List UInt8}
      (hname : draft.TextAt name method.name)
      (hform : MethodForm TypeForm method.signature signature)
      (hblob : draft.BlobAt blob signature) :
      MethodRow draft methods row method
        [address, codeFlags, method.flags, name, blob,
          firstRow (fun (_, method) => method.namedParameters) methods row]

inductive ParameterRow (draft : ImageDraft) (parameter : Nat × String) : List Nat → Prop where
  | mk {flags name : Nat} (hname : draft.TextAt name parameter.2) :
      ParameterRow draft parameter [flags, parameter.1, name]

inductive PropertyRow (draft : ImageDraft) (property : PropertyDraft) : List Nat → Prop where
  | mk {name blob : Nat} {signature : List UInt8} (hname : draft.TextAt name property.name)
      (hform : PropertyForm property.signature signature) (hblob : draft.BlobAt blob signature) :
      PropertyRow draft property [property.flags, name, blob]

inductive PropertyMapRow (lists : List (Nat × List PropertyDraft)) (row : Nat)
    (list : Nat × List PropertyDraft) : List Nat → Prop where
  | mk : PropertyMapRow lists row list [list.1, firstRow Prod.snd lists row]

inductive AccessorRow (accessor : AccessorDraft) : List Nat → Prop where
  | mk : AccessorRow accessor
      [accessor.role.propertyBits, accessor.method,
        CodedIndex.hasSemantics.encode 1 accessor.property]

inductive ConstantRow (draft : ImageDraft) (constant : Nat × Constant) : List Nat → Prop where
  | mk {element blob : Nat} {bytes : List UInt8} (hform : ConstantForm constant.2 element bytes)
      (hblob : draft.BlobAt blob bytes) :
      ConstantRow draft constant [element, CodedIndex.hasConstant.encode 0 constant.1, blob]

/-!
## The rows of a module
-/

/-- The tables that would add to a module, or put other rows in the place of its own. -/
def unusedTables : List TableId :=
  [.fieldPtr, .methodPtr, .paramPtr, .propertyPtr, .eventPtr, .interfaceImpl, .eventMap, .event,
    .typeSpec, .manifestResource, .genericParam]

/-- The draft encodes the module; the accessors of its properties stand in the given order. -/
structure Encodes (draft : ImageDraft) (module : ModuleDraft) (accessors : List AccessorDraft) :
    Prop where
  mvid : draft.mvid = module.mvid
  entryPoint : draft.entryPoint = match module.entryPoint with
    | none => 0
    | some row => (TableId.methodDef.token row).value
  unused : ∀ table ∈ unusedTables, draft.rows table = []
  modules : Written (draft.rows .module) (fun _ => draft.ModuleRow) [module]
  assemblies : Written (draft.rows .assembly) (fun _ => draft.AssemblyRow) module.assembly.toList
  references : Written (draft.rows .assemblyRef) (fun _ => draft.ReferenceRow) module.references
  typeReferences :
    Written (draft.rows .typeRef) (fun _ => draft.TypeReferenceRow) module.typeReferences
  types : Written (draft.rows .typeDef) (draft.TypeRow module.types) module.types
  nestings : WrittenInAnyOrder (draft.rows .nestedClass) NestingRow module.nestings
  fields : Written (draft.rows .field) (fun _ field => draft.FieldRow field.2) module.fields
  methods : Written (draft.rows .methodDef)
    (fun row method => draft.MethodRow module.methods row method.2) module.methods
  parameters : Written (draft.rows .param) (fun _ => draft.ParameterRow)
    (module.methods.flatMap fun (_, method) => method.namedParameters)
  properties :
    Written (draft.rows .property) (fun _ property => draft.PropertyRow property.2)
      module.properties
  propertyMaps : Written (draft.rows .propertyMap) (PropertyMapRow module.propertyLists)
    module.propertyLists
  accessors_perm : accessors.Perm module.accessors
  accessorRows : Written (draft.rows .methodSemantics) (fun _ => AccessorRow) accessors
  constants : WrittenInAnyOrder (draft.rows .constant) draft.ConstantRow module.constants

end ImageDraft
end AssemblyBrowser
