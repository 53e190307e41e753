import AssemblyBrowser.Module.Reader
import AssemblyBrowser.Proofs.Outcomes

/-!
# Metadata with other signatures

One column in each of four tables leads to the signatures that loading reads. Where
metadata agree in everything else, they give the same names, the same structure and
the same rows of members; only what signatures stand for may differ.
-/

namespace AssemblyBrowser

/-- The column of a table whose cells are the indexes of signatures. -/
def TableId.signatureColumn? : TableId → Option Nat
  | field | property => some 2
  | methodDef => some 4
  | typeSpec => some 0
  | _ => none

/-- A table has a column, and the signatures are in another one. -/
def TableId.HasPlain (table : TableId) (column : Nat) : Prop :=
  column < table.columns.length ∧ table.signatureColumn? ≠ some column

instance (table : TableId) (column : Nat) : Decidable (table.HasPlain column) :=
  inferInstanceAs (Decidable (_ ∧ _))

namespace ImageMetadata

/-- The signatures of constructed types, row by row. -/
def constructed (metadata : ImageMetadata) : Except Error (List Bytes) :=
  (metadata.rows .typeSpec).mapM fun row => metadata.blob .typeSpec row 0

/-- The signature of the field in a row. -/
def fieldSignature (metadata : ImageMetadata) (row : Nat) : Except Error TypeSignature :=
  (metadata.blob .field row 2).bind Signature.field.parse

/-- The signature of the method in a row. -/
def methodSignature (metadata : ImageMetadata) (row : Nat) : Except Error MethodSignature :=
  (metadata.blob .methodDef row 4).bind Signature.method.parse

/-- The signature of the property in a row. -/
def propertySignature (metadata : ImageMetadata) (row : Nat) : Except Error PropertySignature :=
  (metadata.blob .property row 2).bind Signature.property.parse

/-- Metadata that agree in all cells but those that lead to signatures, and in what the other
cells lead to. -/
structure SameButSignatures (metadata changed : ImageMetadata) : Prop where
  rowCount : ∀ table, changed.tables.rows table = metadata.tables.rows table
  value : ∀ {table : TableId} {column : Nat}, table.HasPlain column → ∀ row,
    changed.tables.value table row column = metadata.tables.value table row column
  strings : changed.strings = metadata.strings
  blobs : changed.blobs = metadata.blobs
  guids : changed.guids = metadata.guids
  runtimeVersion : changed.runtimeVersion = metadata.runtimeVersion
  entryPoint : changed.entryPoint = metadata.entryPoint
  resourceLength : ∀ row offset, metadata.tables.value .manifestResource row 0 = .ok offset →
    changed.resourceLength offset = metadata.resourceLength offset

namespace SameButSignatures

variable {metadata changed : ImageMetadata} (h : metadata.SameButSignatures changed)

include h

/-!
## Cells
-/

theorem rows (table : TableId) : changed.rows table = metadata.rows table := by
  rw [ImageMetadata.rows, h.rowCount]
  rfl

theorem string {table : TableId} {column : Nat} (hplain : table.HasPlain column) (row : Nat) :
    changed.string table row column = metadata.string table row column := by
  rw [ImageMetadata.string, h.value hplain, h.strings]
  rfl

theorem blob {table : TableId} {column : Nat} (hplain : table.HasPlain column) (row : Nat) :
    changed.blob table row column = metadata.blob table row column := by
  rw [ImageMetadata.blob, h.value hplain, h.blobs]
  rfl

theorem coded {table : TableId} {column : Nat} (hplain : table.HasPlain column) (row : Nat)
    (kind : CodedIndex) :
    changed.tables.coded table row column kind = metadata.tables.coded table row column kind := by
  rw [TableStream.coded, h.value hplain]
  rfl

theorem listRange {table : TableId} {column : Nat} (hplain : table.HasPlain column) (row : Nat)
    (target : TableId) :
    changed.tables.listRange table row column target =
      metadata.tables.listRange table row column target := by
  simp only [TableStream.listRange, h.value hplain, h.rowCount]

/-- The only column of a pointer table holds rows. -/
theorem indirect {pointers : TableId} (hplain : pointers.HasPlain 0) (row : Nat) :
    changed.tables.indirect pointers row = metadata.tables.indirect pointers row := by
  simp only [TableStream.indirect, h.value hplain, h.rowCount]

theorem listedRows {table : TableId} {column : Nat} (hplain : table.HasPlain column) (row : Nat)
    (target : TableId) {pointers : TableId} (hpointers : pointers.HasPlain 0) :
    changed.listedRows table row column target pointers =
      metadata.listedRows table row column target pointers := by
  simp only [ImageMetadata.listedRows, h.listRange hplain, funext (h.indirect hpointers)]

/-!
## Identities and names
-/

theorem moduleHead (name : String) : changed.moduleHead name = metadata.moduleHead name := by
  simp (disch := decide) only [ImageMetadata.moduleHead, h.rowCount, h.string, h.value, h.guids]

theorem version {table : TableId} {first : Nat} (hmajor : table.HasPlain first)
    (hminor : table.HasPlain (first + 1)) (hbuild : table.HasPlain (first + 2))
    (hrevision : table.HasPlain (first + 3)) (row : Nat) :
    changed.version table row first = metadata.version table row first := by
  simp only [ImageMetadata.version, ImageMetadata.versionPart, h.value hmajor, h.value hminor,
    h.value hbuild, h.value hrevision]

theorem assembly? : changed.assembly? = metadata.assembly? := by
  simp (disch := decide) only [ImageMetadata.assembly?, h.rowCount, h.blob, h.string, h.version]

theorem reference (row : Nat) : changed.reference row = metadata.reference row := by
  simp (disch := decide) only [ImageMetadata.reference, h.value, h.blob, h.string, h.version]

theorem resource (references : Array AssemblyReference) (row : Nat) :
    changed.resource references row = metadata.resource references row := by
  unfold ImageMetadata.resource
  rw [h.value (by decide)]
  cases hoffset : metadata.tables.value .manifestResource row 0 with
  | error error => rfl
  | ok offset =>
      simp (disch := decide) only [Outcome.ok_bind, h.value, h.coded, h.string,
        ImageMetadata.resourceLocation, h.resourceLength row offset hoffset]

theorem typeReferences (references : Array AssemblyReference) :
    changed.typeReferences references = metadata.typeReferences references := by
  have hraw : changed.rawTypeReference = metadata.rawTypeReference := by
    funext row
    simp (disch := decide) only [ImageMetadata.rawTypeReference, h.coded, h.string]
  rw [ImageMetadata.typeReferences, h.rows, hraw]
  rfl

theorem genericParameter : changed.genericParameter = metadata.genericParameter := by
  funext row
  simp (disch := decide) only [ImageMetadata.genericParameter, h.value, h.coded, h.string]

theorem typeSkeletons : changed.typeSkeletons = metadata.typeSkeletons := by
  have hnesting : changed.nesting = metadata.nesting := by
    simp (disch := decide) only [ImageMetadata.nesting, h.rows, h.value]
  have hskeleton : changed.typeSkeleton = metadata.typeSkeleton := by
    funext nesting generics row
    simp (disch := decide) only [ImageMetadata.typeSkeleton, h.listedRows, h.string, h.value,
      h.rowCount]
  simp only [ImageMetadata.typeSkeletons, hnesting, h.genericParameter, hskeleton, h.rows]

/-!
## Structure
-/

theorem implementations : changed.implementations = metadata.implementations := by
  simp (disch := decide) only [ImageMetadata.implementations, h.rows, h.value, h.coded]

theorem ownersFromMap {map target pointers : TableId} (htype : map.HasPlain 0)
    (hlist : map.HasPlain 1) (hpointers : pointers.HasPlain 0) :
    changed.ownersFromMap map target pointers = metadata.ownersFromMap map target pointers := by
  simp only [ImageMetadata.ownersFromMap, h.rows, h.rowCount, h.value htype,
    h.listedRows hlist _ _ hpointers]

theorem nameParameters (parameters : List Parameter) (pointers : List Nat) :
    changed.nameParameters parameters pointers = metadata.nameParameters parameters pointers := by
  induction pointers generalizing parameters with
  | nil => rfl
  | cons pointer rest ih =>
      simp (disch := decide) only [ImageMetadata.nameParameters, h.indirect, h.rowCount, h.value,
        h.string, ih]

theorem typeWithHierarchy (scope : TypeScope) :
    changed.typeWithHierarchy scope = metadata.typeWithHierarchy scope := by
  funext m implementations row
  simp (disch := decide) only [ImageMetadata.typeWithHierarchy, h.coded]

end SameButSignatures
end ImageMetadata
end AssemblyBrowser
