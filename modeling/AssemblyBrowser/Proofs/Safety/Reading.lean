import AssemblyBrowser.Module.Reader
import AssemblyBrowser.Proofs.Outcomes
import AssemblyBrowser.Proofs.Safety.Metadata
import AssemblyBrowser.Proofs.Safety.Resolving
import AssemblyBrowser.Proofs.SmallImages

/-!
# Reading modules answers

Each pass over the tables of opened metadata answers. Where a pass indexes what
an earlier pass made, the earlier pass has made one item for each row, and the
rows that a type lists have been checked against the number of rows. So whatever
bytes an image has and whatever sections are found in it, loading gives a module
or an error as long as tokens can tell the rows of every table apart.
-/

namespace AssemblyBrowser
namespace ImageMetadata

open Decoder (safe_unsigned)

/-- Every row can be told in the bits that a token has for it. -/
def RowsFitTokens (metadata : ImageMetadata) : Prop :=
  ∀ table, metadata.tables.rows table < 0x1000000

theorem RowsFitTokens.succ_lt {metadata : ImageMetadata} (h : metadata.RowsFitTokens)
    (table : TableId) : metadata.tables.rows table + 1 < UInt32.size := by
  have hrows : metadata.tables.rows table < 0x1000000 := h table
  have hword : UInt32.size = 4294967296 := rfl
  omega

theorem mem_rows {metadata : ImageMetadata} {table : TableId} {row : Nat} :
    row ∈ metadata.rows table ↔ 1 ≤ row ∧ row ≤ metadata.tables.rows table := by
  rw [rows, List.mem_range'_1]
  omega

theorem length_rows (metadata : ImageMetadata) (table : TableId) :
    (metadata.rows table).length = metadata.tables.rows table := List.length_range'

variable {metadata : ImageMetadata} (h : metadata.Opened)

/-!
## References and resources
-/

section

include h

theorem answers_versionPart (table : TableId) (row column : Nat) :
    Answers (fun _ => True) (metadata.versionPart table row column) :=
  (answers_value h table row column).bind fun _ _ => Answers.pure trivial

theorem answers_version (table : TableId) (row first : Nat) :
    Answers (fun _ => True) (metadata.version table row first) := by
  apply (answers_versionPart h table row first).bind
  intro major _
  apply (answers_versionPart h table row (first + 1)).bind
  intro minor _
  apply (answers_versionPart h table row (first + 2)).bind
  intro build _
  exact (answers_versionPart h table row (first + 3)).bind fun _ _ => Answers.pure trivial

theorem answers_assembly? : Answers (fun _ => True) metadata.assembly? := by
  unfold assembly?
  split
  · exact Answers.pure trivial
  · apply (answers_blob h .assembly 1 6).bind
    intro key _
    apply (answers_string h .assembly 1 7).bind
    intro name _
    apply (answers_version h .assembly 1 1).bind
    intro version _
    exact (answers_string h .assembly 1 8).bind fun _ _ => Answers.pure trivial

theorem answers_reference (row : Nat) : Answers (fun _ => True) (metadata.reference row) := by
  apply (answers_value h .assemblyRef row 4).bind
  intro flags _
  apply (answers_blob h .assemblyRef row 5).bind
  intro key _
  apply (answers_string h .assemblyRef row 6).bind
  intro name _
  apply (answers_version h .assemblyRef row 0).bind
  intro version _
  exact (answers_string h .assemblyRef row 7).bind fun _ _ => Answers.pure trivial

theorem answers_resourceLocation (references : Array AssemblyReference) {offset : Nat}
    (hoffset : offset < UInt32.size) (implementation : Token) :
    Answers (fun _ => True) (metadata.resourceLocation references offset implementation) := by
  unfold resourceLocation
  split_ifs
  · exact (answers_resourceLength h hoffset).bind fun _ _ => Answers.pure trivial
  · exact Answers.pure trivial
  · exact (answers_string h .file implementation.row 1).bind fun _ _ => Answers.pure trivial
  · exact Answers.pure trivial

theorem answers_resource (references : Array AssemblyReference) (row : Nat) :
    Answers (fun _ => True) (metadata.resource references row) := by
  apply (answers_value h .manifestResource row 0).bind
  intro offset hoffset
  apply (answers_value h .manifestResource row 1).bind
  intro flags _
  apply (answers_coded h .manifestResource row 3 .implementation).bind
  intro implementation _
  apply (answers_resourceLocation h references hoffset implementation).bind
  intro location _
  exact (answers_string h .manifestResource row 2).bind fun _ _ => Answers.pure trivial

theorem answers_rawTypeReference (row : Nat) :
    Answers (fun _ => True) (metadata.rawTypeReference row) := by
  apply (answers_coded h .typeRef row 0 .resolutionScope).bind
  intro scope _
  apply (answers_string h .typeRef row 1).bind
  intro name _
  exact (answers_string h .typeRef row 2).bind fun _ _ => Answers.pure trivial

end

theorem answers_typeReferenceName (references : Array AssemblyReference)
    (raw : Array RawTypeReference) (type : RawTypeReference) {index : Nat}
    (hindex : index + 1 < UInt32.size) :
    Answers (fun _ => True) (typeReferenceName references raw type index) := by
  have hmod : index % UInt32.size = index := Nat.mod_eq_of_lt (by omega)
  refine (Bounded.answers_add ?_).bind fun _ _ => Answers.pure trivial
  rw [hmod]
  exact hindex

theorem answers_typeReferences (h : metadata.Opened) (hrows : metadata.RowsFitTokens)
    (references : Array AssemblyReference) :
    Answers (fun _ => True) (metadata.typeReferences references) := by
  refine (Answers.mapM fun row _ => answers_rawTypeReference h row).bind ?_
  intro raw hraw
  refine (Answers.mapM (Q := fun _ => True) ?_).bind fun _ _ => Answers.pure trivial
  intro item hitem
  apply answers_typeReferenceName references raw.toArray item.1
  have hlt : item.2 < raw.length := by
    have hzip := List.mem_zipIdx_iff_getElem?.mp hitem
    exact (List.getElem?_eq_some_iff.mp hzip).1
  have hroom : metadata.tables.rows .typeRef + 1 < UInt32.size := hrows.succ_lt .typeRef
  rw [hraw.1, length_rows] at hlt
  omega

/-!
## Types
-/

/-- The fields and the methods that a type lists stand in rows that there are. -/
structure ListsExist (metadata : ImageMetadata) (type : TypeDefinition) : Prop where
  fields : ∀ token ∈ type.fields, 1 ≤ token.row ∧ token.row ≤ metadata.tables.rows .field
  methods : ∀ token ∈ type.methods, 1 ≤ token.row ∧ token.row ≤ metadata.tables.rows .methodDef

/-- There is a type for each row, and what the types list exists. -/
structure TypesExist (metadata : ImageMetadata) (types : Array TypeDefinition) : Prop where
  size_eq : types.size = metadata.tables.rows .typeDef
  lists : ∀ type ∈ types, ListsExist metadata type

theorem row_token {table : TableId} {row : Nat} (h : row < 0x1000000) :
    (table.token row).row = row := Token.row_ofParts table.number row h

/-- Rows that are kept only where they exist have tokens of rows that exist. -/
theorem existing_rows (hrows : metadata.RowsFitTokens) {table : TableId} {listed : List Nat}
    {token : Token}
    (h : token ∈ (listed.filter fun r => 1 ≤ r ∧ r ≤ metadata.tables.rows table).map table.token) :
    1 ≤ token.row ∧ token.row ≤ metadata.tables.rows table := by
  rcases List.mem_map.mp h with ⟨row, hrow, htoken⟩
  have hbounds : 1 ≤ row ∧ row ≤ metadata.tables.rows table := by
    simpa using (List.mem_filter.mp hrow).2
  have hlt : metadata.tables.rows table < 0x1000000 := hrows table
  rw [← htoken, row_token (by omega)]
  exact hbounds

section

variable (hrows : metadata.RowsFitTokens)

include h

theorem answers_genericParameter (row : Nat) :
    Answers (fun _ => True) (metadata.genericParameter row) := by
  apply (answers_value h .genericParam row 0).bind
  intro number _
  apply (answers_coded h .genericParam row 2 .typeOrMethodDef).bind
  intro owner _
  exact (answers_string h .genericParam row 3).bind fun _ _ => Answers.pure trivial

theorem answers_nesting : Answers (fun _ => True) metadata.nesting := by
  refine (Answers.mapM (Q := fun _ => True) ?_).mono fun _ _ => trivial
  intro row _
  apply (answers_value h .nestedClass row 0).bind
  intro nested _
  exact (answers_value h .nestedClass row 1).bind fun _ _ => Answers.pure trivial

include hrows

theorem answers_typeSkeleton (nesting : List (Nat × Nat)) (generics : List GenericParameterRow)
    (row : Nat) : Answers (ListsExist metadata) (metadata.typeSkeleton nesting generics row) := by
  apply (answers_listedRows h .typeDef row 4 (hrows.succ_lt .field) .fieldPtr).bind
  intro fields _
  apply (answers_listedRows h .typeDef row 5 (hrows.succ_lt .methodDef) .methodPtr).bind
  intro methods _
  apply (answers_string h .typeDef row 2).bind
  intro namespaceName _
  apply (answers_string h .typeDef row 1).bind
  intro name _
  apply (answers_value h .typeDef row 0).bind
  intro flags _
  exact Answers.pure
    ⟨fun token htoken => existing_rows hrows htoken, fun token htoken => existing_rows hrows htoken⟩

omit h hrows in
/-- Linking nested types changes no list of members. -/
theorem TypesExist.linkNesting {types : Array TypeDefinition} (hexist : TypesExist metadata types) :
    TypesExist metadata (linkNesting types) := by
  constructor
  · rw [ImageMetadata.linkNesting, Array.size_mapIdx]
    exact hexist.size_eq
  · intro type hmem
    rcases Array.mem_mapIdx.mp hmem with ⟨index, hindex, heq⟩
    have hlists : ListsExist metadata types[index] := hexist.lists _ (Array.getElem_mem hindex)
    rw [← heq]
    exact ⟨hlists.fields, hlists.methods⟩

theorem answers_typeSkeletons :
    Answers (TypesExist metadata) metadata.typeSkeletons := by
  apply (answers_nesting h).bind
  intro nesting _
  refine (Answers.mapM fun row _ => answers_genericParameter h row).bind ?_
  intro generics _
  refine (Answers.mapM fun row _ => answers_typeSkeleton h hrows nesting generics row).bind ?_
  intro types htypes
  have hexist : TypesExist metadata types.toArray := by
    constructor
    · rw [List.size_toArray, htypes.1, length_rows]
    · intro type hmem
      exact htypes.2 type (by simpa using hmem)
  exact Answers.pure hexist.linkNesting

end

/-!
## Supertypes
-/

section

variable {scope : TypeScope} (hfit : scope.SignaturesFit)

include hfit

theorem answers_typeWithSupertypes (m : CodeModule) {type : TypeDefinition}
    (hlists : ListsExist metadata type) (base : Option TypeExpr) (interfaces : List Token) :
    Answers (ListsExist metadata) (typeWithSupertypes scope m type base interfaces) := by
  refine (Answers.mapM fun token _ => TypeScope.answers_tokenOrObject hfit _ token).bind ?_
  intro found _
  exact Answers.pure ⟨hlists.fields, hlists.methods⟩

include h

theorem answers_typeWithHierarchy {m : CodeModule} (hexist : TypesExist metadata m.types)
    (implementations : List (Nat × Token)) {row : Nat} (hrow : row ∈ metadata.rows .typeDef) :
    Answers (ListsExist metadata) (metadata.typeWithHierarchy scope m implementations row) := by
  have hbounds := mem_rows.mp hrow
  have hsize : m.types.size = metadata.tables.rows .typeDef := hexist.size_eq
  apply (Bounded.answers_subtract hbounds.1).bind
  intro index hindex
  apply (answers_coded h .typeDef row 3 .typeDefOrRef).bind
  intro extended _
  apply (Bounded.answers_item (by omega)).bind
  intro type htype
  have hlists : ListsExist metadata type := hexist.lists type htype
  dsimp only
  split
  · exact answers_typeWithSupertypes hfit m hlists none _
  · apply (TypeScope.answers_tokenOrObject hfit _ extended).bind
    intro base _
    exact answers_typeWithSupertypes hfit m hlists (some base) _

theorem answers_addHierarchy {m : CodeModule} (hexist : TypesExist metadata m.types) :
    Answers (fun m => TypesExist metadata m.types) (metadata.addHierarchy scope m) := by
  have himplementations : Answers (fun _ => True) metadata.implementations := by
    refine (Answers.mapM (Q := fun _ => True) ?_).mono fun _ _ => trivial
    intro row _
    apply (answers_value h .interfaceImpl row 0).bind
    intro type _
    exact (answers_coded h .interfaceImpl row 1 .typeDefOrRef).bind fun _ _ => Answers.pure trivial
  apply himplementations.bind
  intro implementations _
  refine (Answers.mapM fun row hrow =>
    answers_typeWithHierarchy h hfit hexist implementations hrow).bind ?_
  intro types htypes
  refine Answers.pure ⟨?_, ?_⟩
  · change types.toArray.size = _
    rw [List.size_toArray, htypes.1, length_rows]
  · intro type hmem
    exact htypes.2 type (List.mem_toArray.mp hmem)

end

/-!
## Owners
-/

/-- A type that lists members of existing rows becomes the owner of these rows. -/
theorem answers_ownersFromLists {types : Array TypeDefinition}
    {members : TypeDefinition → List Token} {count : Nat}
    (hmembers : ∀ type ∈ types, ∀ token ∈ members type, 1 ≤ token.row ∧ token.row ≤ count) :
    Answers (fun owners => owners.size = count) (ownersFromLists types members count) := by
  refine Answers.foldlM Array.size_replicate ?_
  intro type htype owners howners
  refine Answers.foldlM howners ?_
  intro token htoken owners howners
  have hbounds := hmembers type (by simpa using htype) token htoken
  apply (Bounded.answers_subtract hbounds.1).bind
  intro index hindex
  apply (Bounded.answers_replace (by omega) type.token).mono
  intro changed hchanged
  rw [hchanged]
  exact howners

theorem answers_ownerOf {owners : Array Token} {row : Nat} (h : 1 ≤ row ∧ row ≤ owners.size) :
    Answers (fun _ => True) (ownerOf owners row) := by
  apply (Bounded.answers_subtract h.1).bind
  intro index hindex
  exact (Bounded.answers_item (by omega)).mono fun _ _ => trivial

/-- Rows beyond the last member are passed over. -/
theorem size_ownListed (owners : Array Token) (listed : Token × List Nat) :
    (ownListed owners listed).size = owners.size := by
  refine List.foldlRecOn (motive := fun kept : Array Token => kept.size = owners.size) listed.2 _
    rfl ?_
  intro kept hkept row _
  split
  · exact hkept
  · rw [Array.size_setIfInBounds]
    exact hkept

theorem answers_ownersFromMap (h : metadata.Opened) {target : TableId}
    (hroom : metadata.tables.rows target + 1 < UInt32.size) (map pointers : TableId) :
    Answers (fun owners => owners.size = metadata.tables.rows target)
      (metadata.ownersFromMap map target pointers) := by
  refine (Answers.mapM (Q := fun _ => True) ?_).bind ?_
  · intro row _
    apply (answers_value h map row 0).bind
    intro type _
    exact (answers_listedRows h map row 1 hroom pointers).bind fun _ _ => Answers.pure trivial
  · intro lists _
    apply Answers.pure
    refine List.foldlRecOn
      (motive := fun owners : Array Token => owners.size = metadata.tables.rows target) lists
      ownListed Array.size_replicate ?_
    intro owners howners listed _
    rw [size_ownListed]
    exact howners

/-!
## Members
-/

section

variable {scope : TypeScope} (hfit : scope.SignaturesFit)

include h

/-- A signature in a blob answers like the decoder that reads it. -/
theorem answers_signature {α : Type} {decoder : Decoder α}
    (hdecoder : Decoder.Safe (fun _ => True) decoder) (table : TableId) (row column : Nat) :
    Answers (fun _ => True) ((metadata.blob table row column).bind decoder.parse) :=
  (answers_blob h table row column).bind fun _ hblob => Decoder.answers_parse hdecoder hblob

theorem answers_nameParameters (pointers : List Nat) (parameters : List Parameter) :
    Answers (fun _ => True) (nameParameters metadata parameters pointers) := by
  induction pointers generalizing parameters with
  | nil => exact Answers.pure trivial
  | cons pointer rest ih =>
      rw [nameParameters]
      apply (TableStream.answers_indirect h.tables .paramPtr pointer).bind
      intro row _
      split
      · exact ih parameters
      · apply (answers_value h .param row 1).bind
        intro sequence _
        split
        · exact ih parameters
        · apply (answers_string h .param row 2).bind
          intro name _
          exact ih _

include hfit

theorem answers_methodTypes (names : GenericNames) (row : Nat) :
    Answers (fun _ => True) (metadata.methodTypes scope names row) := by
  apply (answers_signature h Signature.safe_method .methodDef row 4).attempt.bind
  intro signature? _
  split
  case h_1 => exact Answers.pure trivial
  case h_2 signature =>
    apply (TypeScope.answers_typeOrObject hfit names _).bind
    intro returnType _
    refine (Answers.mapM (Q := fun _ => True) ?_).bind fun _ _ => Answers.pure trivial
    intro type _
    exact (TypeScope.answers_typeOrObject hfit names _).bind fun _ _ =>
      Answers.pure trivial

theorem answers_propertyTypes (names : GenericNames) (row : Nat) :
    Answers (fun _ => True) (metadata.propertyTypes scope names row) := by
  apply (answers_signature h Signature.safe_property .property row 2).attempt.bind
  intro signature? _
  split
  case h_1 => exact Answers.pure trivial
  case h_2 signature =>
    apply (TypeScope.answers_typeOrObject hfit names _).bind
    intro type _
    refine (Answers.mapM (Q := fun _ => True) ?_).bind fun _ _ => Answers.pure trivial
    intro parameter _
    exact TypeScope.answers_typeOrObject hfit names _

/-- Whatever a method's signature is, the method has a return type and parameters. -/
theorem exists_methodTypes (names : GenericNames) (row : Nat) :
    ∃ types, metadata.methodTypes scope names row = .ok types := by
  obtain ⟨signature?, hsignature⟩ :=
    (answers_signature h Signature.safe_method .methodDef row 4).exists_attempt
  unfold methodTypes
  rw [hsignature, Outcome.ok_bind]
  cases signature? with
  | none => exact ⟨_, rfl⟩
  | some signature =>
      obtain ⟨result, hresult⟩ := TypeScope.exists_typeOrObject hfit names signature.result
      have hparameters : ∃ parameters, (signature.parameters.mapM fun type => do
          return ({ type := ← scope.signatureOrObject names (.ok type) } : Parameter)) =
            .ok parameters := by
        refine Outcome.exists_mapM_eq_ok.mpr fun type _ => ?_
        obtain ⟨shown, hshown⟩ := TypeScope.exists_typeOrObject hfit names type
        exact ⟨{ type := shown }, by rw [hshown]; rfl⟩
      obtain ⟨parameters, hparameters⟩ := hparameters
      refine ⟨(result, parameters), ?_⟩
      dsimp only
      rw [hresult, Outcome.ok_bind, hparameters]
      rfl

/-- Whatever a property's signature is, the property has a type and parameters. -/
theorem exists_propertyTypes (names : GenericNames) (row : Nat) :
    ∃ types, metadata.propertyTypes scope names row = .ok types := by
  obtain ⟨signature?, hsignature⟩ :=
    (answers_signature h Signature.safe_property .property row 2).exists_attempt
  unfold propertyTypes
  rw [hsignature, Outcome.ok_bind]
  cases signature? with
  | none => exact ⟨_, rfl⟩
  | some signature =>
      obtain ⟨type, htype⟩ := TypeScope.exists_typeOrObject hfit names signature.type
      obtain ⟨parameters, hparameters⟩ := Outcome.exists_mapM_eq_ok.mpr
        fun parameter (_ : parameter ∈ signature.parameters) =>
          TypeScope.exists_typeOrObject hfit names parameter
      refine ⟨(type, parameters), ?_⟩
      dsimp only
      rw [htype, Outcome.ok_bind, hparameters]
      rfl

theorem answers_addFields {m : CodeModule} (hexist : TypesExist metadata m.types) :
    Answers (fun m => TypesExist metadata m.types) (metadata.addFields scope m) := by
  refine (answers_ownersFromLists fun type htype => (hexist.lists type htype).fields).bind ?_
  intro owners howners
  refine (Answers.mapM (Q := fun _ => True) ?_).bind fun _ _ => Answers.pure hexist
  intro row hrow
  apply (answers_ownerOf (by rw [howners]; exact mem_rows.mp hrow)).bind
  intro declaringType _
  apply (answers_string h .field row 1).bind
  intro name _
  apply (answers_value h .field row 0).bind
  intro flags _
  have hsignature := answers_signature h Signature.safe_field .field row 2
  exact (TypeScope.answers_signatureOrObject hfit _ hsignature).bind fun _ _ => Answers.pure trivial

theorem answers_addMethods (hrows : metadata.RowsFitTokens) {m : CodeModule}
    (hexist : TypesExist metadata m.types) :
    Answers (fun _ => True) (metadata.addMethods scope m) := by
  refine (answers_ownersFromLists fun type htype => (hexist.lists type htype).methods).bind ?_
  intro owners howners
  refine (Answers.mapM fun row _ => answers_genericParameter h row).bind ?_
  intro generics _
  refine (Answers.mapM (Q := fun _ => True) ?_).bind fun _ _ => Answers.pure trivial
  intro row hrow
  apply (answers_ownerOf (by rw [howners]; exact mem_rows.mp hrow)).bind
  intro declaringType _
  apply (answers_methodTypes h hfit _ row).bind
  intro types _
  apply (TableStream.answers_listRange h.tables .methodDef row 5 (hrows.succ_lt .param)).bind
  intro range _
  apply (answers_nameParameters h _ types.2).bind
  intro parameters _
  apply (answers_string h .methodDef row 3).bind
  intro name _
  exact (answers_value h .methodDef row 2).bind fun _ _ => Answers.pure trivial

theorem answers_addProperties (hrows : metadata.RowsFitTokens) (m : CodeModule) :
    Answers (fun _ => True) (metadata.addProperties scope m) := by
  apply (answers_ownersFromMap h (hrows.succ_lt .property) .propertyMap .propertyPtr).bind
  intro owners howners
  refine (Answers.mapM (Q := fun _ => True) ?_).bind fun _ _ => Answers.pure trivial
  intro row hrow
  apply (answers_ownerOf (by rw [howners]; exact mem_rows.mp hrow)).bind
  intro declaringType _
  apply (answers_propertyTypes h hfit _ row).bind
  intro types _
  apply (answers_string h .property row 1).bind
  intro name _
  exact (answers_value h .property row 0).bind fun _ _ => Answers.pure trivial

theorem answers_addEvents (hrows : metadata.RowsFitTokens) (m : CodeModule) :
    Answers (fun _ => True) (metadata.addEvents scope m) := by
  apply (answers_ownersFromMap h (hrows.succ_lt .event) .eventMap .eventPtr).bind
  intro owners howners
  refine (Answers.mapM (Q := fun _ => True) ?_).bind fun _ _ => Answers.pure trivial
  intro row hrow
  apply (answers_ownerOf (by rw [howners]; exact mem_rows.mp hrow)).bind
  intro declaringType _
  apply (answers_coded h .event row 2 .typeDefOrRef).bind
  intro handler _
  refine Answers.join (P := fun _ => True) (fun _ => Answers.pure trivial)
    (fun _ => TypeScope.answers_tokenOrObject hfit {} handler) ?_
  intro type _
  apply (answers_string h .event row 1).bind
  intro name _
  exact (answers_value h .event row 0).bind fun _ _ => Answers.pure trivial

end

/-!
## Accessors, constants and the module itself
-/

theorem answers_decodeConstant (elementType : Nat) {blob : Bytes}
    (hsize : blob.size < UInt32.size) :
    Answers (fun _ => True) (decodeConstant elementType blob) := by
  have hword : ∀ {α : Type} (width : Nat) (value : Nat → α),
      Answers (fun _ => True)
        (do return value (← (Decoder.unsigned width).parse blob) : Except Error α) :=
    fun width value =>
      (Decoder.answers_parse (safe_unsigned width) hsize).bind fun _ _ => Answers.pure trivial
  unfold decodeConstant
  split
  case h_13 => exact Answers.pure trivial
  case h_14 => exact Answers.pure trivial
  case h_15 => exact rfl
  all_goals exact hword _ _

section

include h

theorem answers_addAccessors (m : CodeModule) :
    Answers (fun _ => True) (metadata.addAccessors m) := by
  apply Answers.foldlM trivial
  intro row _ m _
  apply (answers_value h .methodSemantics row 0).bind
  intro bits _
  split
  case h_1 => exact Answers.pure trivial
  case h_2 role =>
    apply (answers_value h .methodSemantics row 1).bind
    intro method _
    exact (answers_coded h .methodSemantics row 2 .hasSemantics).bind fun _ _ =>
      Answers.pure trivial

theorem answers_addConstants (m : CodeModule) :
    Answers (fun _ => True) (metadata.addConstants m) := by
  apply Answers.foldlM trivial
  intro row _ m _
  apply (answers_coded h .constant row 1 .hasConstant).bind
  intro parent _
  split
  · exact Answers.pure trivial
  · apply (answers_value h .constant row 0).bind
    intro elementType _
    apply (answers_blob h .constant row 2).bind
    intro blob hblob
    apply (answers_decodeConstant (elementType % 256) hblob).attempt.bind
    intro value? _
    split
    case h_1 => exact Answers.pure trivial
    case h_2 value => split <;> exact Answers.pure trivial

theorem answers_moduleHead (name : String) :
    Answers (fun _ => True) (metadata.moduleHead name) := by
  unfold moduleHead
  split
  · exact Answers.pure trivial
  · apply (answers_string h .module 1 1).bind
    intro ownName _
    apply (answers_value h .module 1 2).bind
    intro index hindex
    exact (Heap.answers_guid metadata.guids hindex).bind fun _ _ => Answers.pure trivial

/-- All passes together: each leaves behind what the later ones index. -/
theorem answers_toModule (hrows : metadata.RowsFitTokens) (name : String) :
    Answers (fun _ => True) (metadata.toModule name) := by
  apply (answers_moduleHead h name).bind
  intro head _
  apply (answers_assembly? h).bind
  intro assembly _
  refine (Answers.mapM fun row _ => answers_reference h row).bind ?_
  intro references _
  refine (Answers.mapM fun row _ => answers_resource h references.toArray row).bind ?_
  intro resources _
  apply (answers_typeReferences h hrows references.toArray).bind
  intro typeReferences _
  apply (answers_typeSkeletons h hrows).bind
  intro types htypes
  refine (Answers.mapM fun row _ => answers_blob h .typeSpec row 0).bind ?_
  intro constructed hconstructed
  have hfit : ∀ definitions, TypeScope.SignaturesFit
      { definitions, references := typeReferences, constructed := constructed.toArray } := by
    intro definitions blob hblob
    exact hconstructed.2 blob (List.mem_toArray.mp hblob)
  apply (answers_addHierarchy h (hfit _) htypes).bind
  intro m hhierarchy
  apply (answers_addFields h (hfit _) hhierarchy).bind
  intro m hfields
  apply (answers_addMethods h (hfit _) hrows hfields).bind
  intro m _
  apply (answers_addProperties h (hfit _) hrows m).bind
  intro m _
  apply (answers_addEvents h (hfit _) hrows m).bind
  intro m _
  apply (answers_addAccessors h m).bind
  intro m _
  exact answers_addConstants h m

end

end ImageMetadata

/-!
## Loading
-/

namespace CodeModule

theorem answers_ofImage {image : Image} (name : String)
    (hrows : ∀ metadata, ImageMetadata.ofImage image = .ok metadata → metadata.RowsFitTokens) :
    Answers (fun _ => True) (ofImage image name) := by
  have hopened := ImageMetadata.answers_ofImage image
  unfold ofImage
  cases hmetadata : ImageMetadata.ofImage image with
  | ok metadata =>
      rw [hmetadata] at hopened
      exact ImageMetadata.answers_toModule hopened (hrows metadata hmetadata) name
  | error error =>
      rw [hmetadata] at hopened
      exact hopened

/-- An image with fewer rows in each table than tokens can tell is loaded or refused: no index
leaves its range and no sum, difference or product leaves its machine word. -/
theorem loading_answers (image : Image) (name : String)
    (hrows : ∀ metadata, ImageMetadata.ofImage image = .ok metadata →
      ∀ table, metadata.tables.rows table < 0x1000000) :
    (∃ m, ofImage image name = .ok m) ∨
      ∃ error, ofImage image name = .error error ∧ error.isCrash = false := by
  have hanswers := answers_ofImage name hrows
  cases houtcome : ofImage image name with
  | ok m => exact Or.inl ⟨m, rfl⟩
  | error error => exact Or.inr ⟨error, rfl, hanswers.not_crash houtcome⟩

/-- The rows of an image that has been opened can be counted table by table. -/
theorem rows_lt_of_all (image : Image)
    (h : (ImageMetadata.ofImage image).toOption.all
      (fun metadata => TableId.all.all fun table => metadata.tables.rows table < 0x1000000) = true) :
    ∀ metadata, ImageMetadata.ofImage image = .ok metadata →
      ∀ table, metadata.tables.rows table < 0x1000000 := by
  intro metadata hmetadata table
  rw [hmetadata] at h
  exact of_decide_eq_true (List.all_eq_true.mp h table (TableId.mem_all table))

theorem loading_answers_two_types :
    (∀ metadata, ImageMetadata.ofImage (SmallImage.ofNesting 2 [(2, 1)]) = .ok metadata →
      ∀ table, metadata.tables.rows table < 0x1000000) ∧
    ((∃ m, ofImage (SmallImage.ofNesting 2 [(2, 1)]) "" = .ok m) ∨
      ∃ error, ofImage (SmallImage.ofNesting 2 [(2, 1)]) "" = .error error ∧
        error.isCrash = false) := by
  have hrows := rows_lt_of_all (SmallImage.ofNesting 2 [(2, 1)]) (by decide +kernel)
  exact ⟨hrows, loading_answers _ "" hrows⟩

/-- Bytes that are no image are refused without a crash. -/
theorem decode_not_crash {data : Bytes} {error : Error} (h : Image.decode data = .error error) :
    error.isCrash = false := by
  unfold Image.decode at h
  split at h
  · rw [← Except.error.inj h]
    rfl
  · split at h
    · rw [← Except.error.inj h]
      rfl
    · split at h
      · rw [← Except.error.inj h]
        rfl
      · split at h
        · rw [← Except.error.inj h]
          rfl
        · cases h

/-- The same for the bytes of a whole file, whose sections the headers list. -/
theorem ofBytes_not_crash {name : String} {data : Bytes} {error : Error}
    (hrows : ∀ image metadata, Image.decode data = .ok image →
      ImageMetadata.ofImage image = .ok metadata → metadata.RowsFitTokens)
    (h : ofBytes name data = .error error) : error.isCrash = false := by
  unfold ofBytes at h
  cases himage : Image.decode data with
  | ok image =>
      rw [himage] at h
      exact (answers_ofImage name (hrows image · himage)).not_crash h
  | error cause =>
      rw [himage] at h
      rw [← Except.error.inj h]
      exact decode_not_crash himage

end CodeModule
end AssemblyBrowser
