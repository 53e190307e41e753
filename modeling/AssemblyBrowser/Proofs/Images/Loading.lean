import AssemblyBrowser.Proofs.Images.Files
import AssemblyBrowser.Proofs.Images.Links
import AssemblyBrowser.Proofs.Images.Rows

/-!
# Loading undoes writing
-/

namespace AssemblyBrowser

/-- A module with its types, before its members have been read. -/
def ModuleDraft.withTypes (module : ModuleDraft) (name : String) : CodeModule where
  name := if name.isEmpty then module.name else name
  mvid := some ⟨module.mvid.toArray⟩
  assembly := module.assembly.map AssemblyDraft.identity
  references := module.shownReferences.toArray
  types := module.linkedTypes.toArray
  runtimeVersion := MetadataRoot.writtenVersion
  entryPoint := module.entryPoint.map TableId.methodDef.token

namespace ImageDraft

section Loading

variable {metadata : ImageMetadata} {draft : ImageDraft} {module : ModuleDraft}
  {order : List AccessorDraft} (holds : Holds metadata draft)
  (encodes : draft.Encodes module order) (wellFormed : module.WellFormed)

include encodes in
theorem startToken_eq : draft.startToken = module.entryPoint.map TableId.methodDef.token := by
  unfold startToken
  rw [encodes.entryPoint]
  cases module.entryPoint with
  | none => rfl
  | some row =>
      have htable : (TableId.methodDef.token row).table = TableId.methodDef.number :=
        TableId.table_token _ _
      have hne : (TableId.methodDef.token row).value ≠ 0 := by
        intro hzero
        rw [Token.table, hzero] at htable
        cases htable
      dsimp only
      rw [if_neg hne, Option.filter_some, if_pos (by rw [htable]; rfl)]
      rfl

include holds encodes wellFormed

/-- The tables and heaps of a description are read as the module that is shown. -/
theorem toModule_eq (name : String) : metadata.toModule name = .ok (module.shown name order) := by
  have hresources : (metadata.rows .manifestResource).mapM
      (metadata.resource module.shownReferences.toArray) = .ok [] := by
    rw [rows_unused holds (encodes.unused .manifestResource (by decide))]
    rfl
  have hconstructed : (metadata.rows .typeSpec).mapM
      (fun row => metadata.blob .typeSpec row 0) = .ok [] := by
    rw [rows_unused holds (encodes.unused .typeSpec (by decide))]
    rfl
  have hsmall : module.types.length < 0x1000000 :=
    Nat.lt_trans (types_lt holds encodes) (by decide)
  have hnames := ModuleDraft.typeNames_eq module.linkedType_keepsNames
    (show (module.withTypes name).types = module.linkedTypes.toArray from rfl)
    wellFormed.typeNesting hsmall
  have hscope : ({ definitions := module.linkedTypes.toArray.map fun type =>
                     ((module.withTypes name).typeName? type.token).getD {}
                   references := ((List.range' 1 module.typeReferences.length).map
                     module.referenceName).toArray
                   constructed := ([] : List Bytes).toArray } : TypeScope) = module.scope :=
    congrArg (TypeScope.mk · _ _) hnames
  refine Outcome.bind_ok (moduleHead_eq holds encodes wellFormed name) ?_
  refine Outcome.bind_ok (assembly?_eq holds encodes wellFormed) ?_
  refine Outcome.bind_ok (references_eq holds encodes wellFormed) ?_
  refine Outcome.bind_ok hresources ?_
  refine Outcome.bind_ok (typeReferences_eq holds encodes wellFormed) ?_
  refine Outcome.bind_ok (typeSkeletons_eq holds encodes wellFormed) ?_
  refine Outcome.bind_ok hconstructed ?_
  rw [holds.runtimeVersion, holds.entryPoint, startToken_eq encodes]
  dsimp only
  rw [← ModuleDraft.withTypes, hscope]
  refine Outcome.bind_ok (addHierarchy_eq holds encodes wellFormed rfl) ?_
  refine Outcome.bind_ok (addFields_eq holds encodes wellFormed rfl) ?_
  refine Outcome.bind_ok (addMethods_eq holds encodes wellFormed rfl) ?_
  refine Outcome.bind_ok (addProperties_eq holds encodes wellFormed rfl) ?_
  refine Outcome.bind_ok (addEvents_eq holds encodes rfl rfl) ?_
  refine Outcome.bind_ok (addAccessors_eq holds encodes wellFormed rfl rfl) ?_
  exact addConstants_eq holds encodes rfl

end Loading

/-- A file is loaded from the rows and the heaps that were written into it. -/
theorem exists_ofBytes_eq {draft : ImageDraft} (hfits : draft.Fits) :
    ∃ metadata, Holds metadata draft ∧
      ∀ name, CodeModule.ofBytes name draft.bytes.toArray = metadata.toModule name := by
  obtain ⟨metadata, hmetadata, hholds⟩ := ofImage_image hfits (length_headers draft)
  refine ⟨metadata, hholds, fun name => ?_⟩
  rw [CodeModule.ofBytes, ImageHeader.decode_bytes hfits, Outcome.ok_bind, CodeModule.ofImage,
    hmetadata, Outcome.ok_bind]

/-- A module that is written into a file is loaded from it: its types, its members and all that
is said about them, in the order of their rows. -/
theorem loads_written_module {draft : ImageDraft} {module : ModuleDraft}
    {order : List AccessorDraft} (hfits : draft.Fits) (hencodes : draft.Encodes module order)
    (hformed : module.WellFormed) (name : String) :
    CodeModule.ofBytes name draft.bytes.toArray = .ok (module.shown name order) := by
  obtain ⟨metadata, hholds, hloads⟩ := exists_ofBytes_eq hfits
  rw [hloads, toModule_eq hholds hencodes hformed]

end ImageDraft

/-!
## A small library
-/

section Sample

/-- A library with a class that has a constant, a field, a property and a class inside it. -/
def sampleModule : ModuleDraft where
  name := "Sample.dll"
  mvid := Vector.replicate 16 0x5A
  entryPoint := none
  assembly := some ⟨"Sample", ⟨1, 2, 3, 4⟩, "", []⟩
  references := [⟨"System.Runtime", ⟨8, 0, 0, 0⟩, "",
    .token #v[0xB0, 0x3F, 0x5F, 0x7F, 0x11, 0xD5, 0x0A, 0x3A]⟩]
  typeReferences := [⟨.assembly 1, "Object", "System"⟩]
  types :=
    [{ flags := 0, namespaceName := "", name := "<Module>", base := none, outer := none
       fields := [], methods := [], properties := [] },
     { flags := 0x100001, namespaceName := "Sample", name := "Widget"
       base := some (TableId.typeRef.token 1), outer := none
       fields := [⟨0x8056, "MaxSize", .primitive .int32, some (.integer .int32 42)⟩,
         ⟨1, "owner", .classType (TableId.typeDef.token 2), none⟩]
       methods := [⟨0x886, "get_Size", { hasThis := true }, 0, .primitive .int32, []⟩,
         ⟨0x886, "set_Size", { hasThis := true }, 0, .primitive .void,
           [⟨some "value", .primitive .int32⟩]⟩]
       properties := [⟨0, "Size", true, .primitive .int32, [], some 1, some 2⟩] },
     { flags := 2, namespaceName := "Inner", name := "Part"
       base := some (TableId.typeRef.token 1), outer := some 2
       fields := [], methods := [], properties := [] }]

def sampleTexts : List String :=
  ["Sample.dll", "Sample", "System", "Object", "System.Runtime", "<Module>", "Widget", "Part",
    "Inner", "MaxSize", "owner", "get_Size", "set_Size", "value", "Size"]

def sampleBlobs : List (List UInt8) :=
  [[0x06, 0x08], [0x06, 0x12, 0x08], [0x20, 0x00, 0x08], [0x20, 0x01, 0x01, 0x08],
    [0x28, 0x00, 0x08], [42, 0, 0, 0], [0xB0, 0x3F, 0x5F, 0x7F, 0x11, 0xD5, 0x0A, 0x3A]]

def sampleDraft : ImageDraft where
  strings := 0 :: sampleTexts.flatMap fun text => (Utf8.encode text).toList ++ [0]
  blobs := 0 :: sampleBlobs.flatMap fun blob => UInt8.ofNat blob.length :: blob
  rows
    | .module => [[0, 1, 1, 0, 0]]
    | .typeRef => [[6, 26, 19]]
    | .typeDef => [[0, 48, 0, 0, 1, 1], [0x100001, 57, 12, 5, 1, 1], [2, 64, 69, 5, 3, 3]]
    | .field => [[0x8056, 75, 1], [1, 83, 4]]
    | .methodDef => [[0, 0, 0x886, 89, 8, 1], [0, 0, 0x886, 98, 12, 1]]
    | .param => [[0, 1, 107]]
    | .constant => [[0x08, 4, 21]]
    | .propertyMap => [[2, 1]]
    | .property => [[0, 113, 17]]
    | .methodSemantics => [[2, 1, 3], [1, 2, 3]]
    | .assembly => [[0x8004, 1, 2, 3, 4, 0, 0, 12, 0]]
    | .assemblyRef => [[8, 0, 0, 0, 0, 26, 33, 0, 0]]
    | .nestedClass => [[3, 2]]
    | _ => []
  mvid := Vector.replicate 16 0x5A
  entryPoint := 0

def sampleAccessors : List AccessorDraft := [⟨.getter, 1, 1⟩, ⟨.setter, 2, 1⟩]

/-- The headers, the tables and the heaps of the library make up its file. -/
example : sampleDraft.bytes.length = 1536 := by decide +kernel

theorem sampleDraft_fits : sampleDraft.Fits where
  rowCount_lt table := by cases table <;> decide
  index table :=
    (by decide +kernel : ∀ table ∈ TableId.all, sampleDraft.rows table ≠ [] →
      ∀ column ∈ table.columns, sampleDraft.IndexFits column) table table.mem_all
  cell_lt table :=
    (by decide +kernel : ∀ table ∈ TableId.all, ∀ row ∈ sampleDraft.rows table,
      List.Forall₂ (fun width cell => cell < Nat.pow 256 width) table.smallWidths row)
      table table.mem_all
  text_lt := by decide +kernel

theorem sampleModule_wellFormed : sampleModule.WellFormed where
  name := by decide +kernel
  assembly := by decide +kernel
  references := by decide +kernel
  typeReferences := by decide +kernel
  types := by decide +kernel
  typeNesting := .of_earlier (by decide +kernel)
  referenceNesting := .of_earlier (by decide +kernel)

theorem sampleDraft_encodes : sampleDraft.Encodes sampleModule sampleAccessors where
  mvid := rfl
  entryPoint := rfl
  unused := by decide
  modules := .cons (.mk (by decide +kernel)) .nil
  assemblies := .cons (.mk (by decide +kernel) (by decide +kernel) (by decide +kernel)) .nil
  references := .cons (.mk (.token rfl) (by decide +kernel) (by decide +kernel)
    (by decide +kernel)) .nil
  typeReferences := .cons (.mk (by decide +kernel) (by decide +kernel)) .nil
  types := .cons (.mk (by decide +kernel) (by decide +kernel)) <|
    .cons (.mk (by decide +kernel) (by decide +kernel)) <|
    .cons (.mk (by decide +kernel) (by decide +kernel)) .nil
  nestings := ⟨_, .refl _, .cons .mk .nil⟩
  fields :=
    .cons (.mk (by decide +kernel) (.mk (.mk .nil (.primitive .int32))) (by decide +kernel)) <|
    .cons (.mk (by decide +kernel) (.mk (.mk .nil (.classType (.definition rfl))))
      (by decide +kernel)) .nil
  methods :=
    .cons (.mk (by decide +kernel)
      (@MethodForm.mk _ 0 false _ _ [] (by decide) (fun _ => rfl) (by decide) (by decide)
        (.mk .nil (.primitive .int32)) .nil) (by decide +kernel)) <|
    .cons (.mk (by decide +kernel)
      (@MethodForm.mk _ 0 false _ _ _ (by decide) (fun _ => rfl) (by decide) (by decide)
        (.mk .nil (.primitive .void)) (.cons (.plain (.mk .nil (.primitive .int32))) .nil))
      (by decide +kernel)) .nil
  parameters := .cons (.mk (by decide +kernel)) .nil
  properties :=
    .cons (.mk (by decide +kernel) (.mk (by decide) (.mk .nil (.primitive .int32)) .nil)
      (by decide +kernel)) .nil
  propertyMaps := .cons .mk .nil
  accessors_perm := .refl _
  accessorRows := .cons .mk (.cons .mk .nil)
  constants := ⟨_, .refl _, .cons (.mk (.integer (by decide)) (by decide +kernel)) .nil⟩

theorem loads_sampleModule : sampleDraft.Fits ∧ sampleDraft.Encodes sampleModule sampleAccessors ∧
    sampleModule.WellFormed ∧ ∃ loaded, CodeModule.ofBytes "" sampleDraft.bytes.toArray =
      .ok loaded ∧ loaded.name = "Sample.dll" ∧
      loaded.types.toList.map (·.name) = ["<Module>", "Widget", "Part"] ∧
      loaded.fields.toList.map (·.constant) = [some (.integer .int32 42), none] ∧
      loaded.methods.toList.map (·.role) = [some .getter, some .setter] :=
  ⟨sampleDraft_fits, sampleDraft_encodes, sampleModule_wellFormed, _,
    ImageDraft.loads_written_module sampleDraft_fits sampleDraft_encodes
      sampleModule_wellFormed "",
    by decide +kernel, by decide +kernel, by decide +kernel, by decide +kernel⟩

/-- The library under a name that goes on behind a zero character. -/
def terminatedModule : ModuleDraft := { sampleModule with name := "Sample.dll\x00Sample" }

theorem sampleDraft_encodes_terminatedModule :
    sampleDraft.Encodes terminatedModule sampleAccessors :=
  { sampleDraft_encodes with modules := .cons (.mk (by decide +kernel)) .nil }

/-- What is not read back: the namespace of a type inside another one, what stands behind a zero
character in a name, and types that nest too deep. -/
theorem written_modules_not_read_back :
    (sampleDraft.Fits ∧ sampleDraft.Encodes sampleModule sampleAccessors ∧
      sampleDraft.Encodes terminatedModule sampleAccessors ∧
      ∃ loaded, CodeModule.ofBytes "" sampleDraft.bytes.toArray = .ok loaded ∧
        loaded.types.toList.map (·.namespaceName) ≠
          sampleModule.types.map TypeDraft.namespaceName ∧
        loaded.name ≠ terminatedModule.name) ∧
    FieldForm (Signature.pointers 64) (0x06 :: Signature.pointerBytes 64) ∧
      ∀ (scope : TypeScope) (generics : GenericNames), scope.signatureOrObject generics
        (Signature.field.parse (0x06 :: Signature.pointerBytes 64).toArray) = .ok .object := by
  obtain ⟨metadata, hholds, hloads⟩ := ImageDraft.exists_ofBytes_eq sampleDraft_fits
  have hloaded : CodeModule.ofBytes "" sampleDraft.bytes.toArray =
      .ok (sampleModule.shown "" sampleAccessors) := by
    rw [hloads, ImageDraft.toModule_eq hholds sampleDraft_encodes sampleModule_wellFormed]
  obtain ⟨hform, hparse⟩ := Signature.parse_field_pointers
  refine ⟨⟨sampleDraft_fits, sampleDraft_encodes, sampleDraft_encodes_terminatedModule, _, hloaded,
    by decide +kernel, by decide +kernel⟩, hform, fun scope generics => ?_⟩
  rw [Signature.maxDepth] at hparse
  rw [hparse]
  rfl

end Sample
end AssemblyBrowser
