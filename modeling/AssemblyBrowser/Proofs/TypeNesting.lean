import AssemblyBrowser.Module.Reader
import AssemblyBrowser.Proofs.SmallImages
import AssemblyBrowser.Proofs.TypeTrees

/-!
# How loading nests types

The rows that say which type stands inside which are taken as they are. Of the
rows about a type the last one counts; nothing is checked, so the nested types
of a module form a circle exactly if the rows do, and then listings of its types
do not end.
-/

namespace AssemblyBrowser

/-- What a type says about nesting: its own token, the type around it, the types inside it. -/
def TypeDefinition.nest (type : TypeDefinition) : Token × Option Token × List Token :=
  (type.token, type.declaringType, type.nestedTypes)

/-- A type as it has been read first, without what later passes find. -/
def TypeDefinition.skeleton (type : TypeDefinition) : TypeDefinition :=
  { type with base := none, interfaces := [], kind := .classType, properties := [], events := [] }

namespace CodeModule

/-- Nesting of all types, row by row. -/
def nestTable (m : CodeModule) : Array (Token × Option Token × List Token) :=
  m.types.map TypeDefinition.nest

/-- The types as they have been read first, row by row. -/
def skeletons (m : CodeModule) : Array TypeDefinition := m.types.map TypeDefinition.skeleton

/-- A type is in the list of the types nested in another one. -/
def Nests (m : CodeModule) (outer inner : Token) : Prop :=
  ∃ type, m.type? outer = some type ∧ inner ∈ type.nestedTypes

end CodeModule

namespace ImageMetadata

variable {metadata : ImageMetadata} {scope : TypeScope}

/-!
## Passes that keep what has been read first
-/

/-- What is done for every row is there at the place of the row. -/
theorem mapM_rows {α : Type} {table : TableId} {f : Nat → Except Error α} {values : List α}
    (h : (metadata.rows table).mapM f = .ok values) :
    values.length = metadata.tables.rows table ∧
      ∀ (index : Nat) (hindex : index < values.length), f (index + 1) = .ok values[index] := by
  have hall := List.forall₂_iff_get.mp (Outcome.mapM_eq_ok.mp h)
  have hlength : values.length = metadata.tables.rows table := by
    rw [← hall.1]
    exact List.length_range'
  refine ⟨hlength, ?_⟩
  intro index hindex
  have hvalue := hall.2 index (by rw [hall.1]; exact hindex) hindex
  simpa [rows, List.getElem_range', Nat.add_comm] using hvalue

theorem typeWithSupertypes_eq {m : CodeModule} {before type : TypeDefinition}
    {base : Option TypeExpr} {interfaces : List Token}
    (h : typeWithSupertypes scope m before base interfaces = .ok type) :
    ∃ base interfaces kind, type = { before with base, interfaces, kind } := by
  rcases Outcome.bind_eq_ok.mp h with ⟨found, _, hpure⟩
  exact ⟨_, _, _, (Outcome.pure_eq_ok.mp hpure).symm⟩

/-- A type gets its supertypes and its kind, and nothing else of it changes. -/
theorem typeWithHierarchy_eq {m : CodeModule} {implementations : List (Nat × Token)} {row : Nat}
    {type : TypeDefinition}
    (h : metadata.typeWithHierarchy scope m implementations row = .ok type) :
    ∃ before, m.types[row - 1]? = some before ∧
      ∃ base interfaces kind, type = { before with base, interfaces, kind } := by
  unfold typeWithHierarchy at h
  rcases Outcome.bind_eq_ok.mp h with ⟨index, hindex, hextended⟩
  rcases Outcome.bind_eq_ok.mp hextended with ⟨extended, _, hbefore⟩
  rcases Outcome.bind_eq_ok.mp hbefore with ⟨before, hitem, hbase⟩
  have hat : m.types[row - 1]? = some before := by
    rw [Bounded.subtract_eq_iff.mp hindex |>.2]
    exact Bounded.item_eq_iff.mp hitem
  refine ⟨before, hat, ?_⟩
  dsimp only at hbase
  split at hbase
  · exact typeWithSupertypes_eq hbase
  · rcases Outcome.bind_eq_ok.mp hbase with ⟨base, _, hfound⟩
    exact typeWithSupertypes_eq hfound

theorem typeWithHierarchy_skeleton {m : CodeModule} {implementations : List (Nat × Token)}
    {row : Nat} {type : TypeDefinition}
    (h : metadata.typeWithHierarchy scope m implementations row = .ok type) :
    ∃ before, m.types[row - 1]? = some before ∧ type.skeleton = before.skeleton := by
  rcases typeWithHierarchy_eq h with ⟨before, hat, base, interfaces, kind, heq⟩
  exact ⟨before, hat, by rw [heq]; rfl⟩

theorem addHierarchy_skeletons {m after : CodeModule}
    (h : metadata.addHierarchy scope m = .ok after)
    (hsize : m.types.size = metadata.tables.rows .typeDef) : after.skeletons = m.skeletons := by
  unfold addHierarchy at h
  rcases Outcome.bind_eq_ok.mp h with ⟨implementations, _, htypes⟩
  rcases Outcome.bind_eq_ok.mp htypes with ⟨types, hmap, hpure⟩
  have hrows := mapM_rows hmap
  rw [← Outcome.pure_eq_ok.mp hpure]
  refine Array.ext ?_ ?_
  · simp [CodeModule.skeletons, hsize, hrows.1]
  · intro index hafter hbefore
    have hindex : index < types.length := by simpa [CodeModule.skeletons] using hafter
    rcases typeWithHierarchy_skeleton (hrows.2 index hindex) with ⟨before, hat, hskeleton⟩
    have hmember : m.types[index]? = some before := by simpa using hat
    rcases Array.getElem?_eq_some_iff.mp hmember with ⟨hlt, heq⟩
    simp [CodeModule.skeletons, hskeleton, heq]

theorem addFields_skeletons {m after : CodeModule} (h : metadata.addFields scope m = .ok after) :
    after.skeletons = m.skeletons := by
  unfold addFields at h
  rcases Outcome.bind_eq_ok.mp h with ⟨owners, _, hfields⟩
  rcases Outcome.bind_eq_ok.mp hfields with ⟨fields, _, hpure⟩
  rw [← Outcome.pure_eq_ok.mp hpure]
  rfl

theorem addMethods_skeletons {m after : CodeModule} (h : metadata.addMethods scope m = .ok after) :
    after.skeletons = m.skeletons := by
  unfold addMethods at h
  rcases Outcome.bind_eq_ok.mp h with ⟨owners, _, hgenerics⟩
  rcases Outcome.bind_eq_ok.mp hgenerics with ⟨generics, _, hmethods⟩
  rcases Outcome.bind_eq_ok.mp hmethods with ⟨methods, _, hpure⟩
  rw [← Outcome.pure_eq_ok.mp hpure]
  rfl

theorem addProperties_skeletons {m after : CodeModule}
    (h : metadata.addProperties scope m = .ok after) : after.skeletons = m.skeletons := by
  unfold addProperties at h
  rcases Outcome.bind_eq_ok.mp h with ⟨owners, _, hproperties⟩
  rcases Outcome.bind_eq_ok.mp hproperties with ⟨properties, _, hpure⟩
  rw [← Outcome.pure_eq_ok.mp hpure]
  simp [CodeModule.skeletons, Array.ext_iff, TypeDefinition.skeleton]

theorem addEvents_skeletons {m after : CodeModule} (h : metadata.addEvents scope m = .ok after) :
    after.skeletons = m.skeletons := by
  unfold addEvents at h
  rcases Outcome.bind_eq_ok.mp h with ⟨owners, _, hevents⟩
  rcases Outcome.bind_eq_ok.mp hevents with ⟨events, _, hpure⟩
  rw [← Outcome.pure_eq_ok.mp hpure]
  simp [CodeModule.skeletons, Array.ext_iff, TypeDefinition.skeleton]

theorem linkAccessor_types (m : CodeModule) (method : Token) (role : AccessorRole)
    (owner : Token) : (linkAccessor m method role owner).types = m.types := by
  unfold linkAccessor
  dsimp only
  split_ifs <;> rfl

theorem addAccessors_skeletons {m after : CodeModule} (h : metadata.addAccessors m = .ok after) :
    after.skeletons = m.skeletons := by
  refine Outcome.foldlM_keeps (P := fun kept => kept.skeletons = m.skeletons) h rfl ?_
  intro before row next hstep hbefore
  rcases Outcome.bind_eq_ok.mp hstep with ⟨bits, _, hrole⟩
  split at hrole
  · rw [← Outcome.pure_eq_ok.mp hrole]
    exact hbefore
  · rcases Outcome.bind_eq_ok.mp hrole with ⟨method, _, howner⟩
    rcases Outcome.bind_eq_ok.mp howner with ⟨owner, _, hpure⟩
    rw [← Outcome.pure_eq_ok.mp hpure, CodeModule.skeletons, linkAccessor_types]
    exact hbefore

theorem addConstants_skeletons {m after : CodeModule} (h : metadata.addConstants m = .ok after) :
    after.skeletons = m.skeletons := by
  refine Outcome.foldlM_keeps (P := fun kept => kept.skeletons = m.skeletons) h rfl ?_
  intro before row next hstep hbefore
  rcases Outcome.bind_eq_ok.mp hstep with ⟨parent, _, hparent⟩
  split at hparent
  · rw [← Outcome.pure_eq_ok.mp hparent]
    exact hbefore
  · rcases Outcome.bind_eq_ok.mp hparent with ⟨elementType, _, hblob⟩
    rcases Outcome.bind_eq_ok.mp hblob with ⟨blob, _, hvalue⟩
    rcases Outcome.bind_eq_ok.mp hvalue with ⟨value?, _, hfield⟩
    split at hfield
    · rw [← Outcome.pure_eq_ok.mp hfield]
      exact hbefore
    · split at hfield
      · rw [← Outcome.pure_eq_ok.mp hfield]
        exact hbefore
      · rw [← Outcome.pure_eq_ok.mp hfield]
        exact hbefore

/-!
## Reading the rows
-/

/-- What stands in a type before anything is linked; of the listed rows those are kept that
there are. -/
theorem typeSkeleton_eq {nesting : List (Nat × Nat)} {generics : List GenericParameterRow}
    {row : Nat} {type : TypeDefinition}
    (h : metadata.typeSkeleton nesting generics row = .ok type) :
    ∃ (fields methods : List Nat) (namespaceName name : String) (flags : Nat),
      metadata.listedRows .typeDef row 4 .field .fieldPtr = .ok fields ∧
      metadata.listedRows .typeDef row 5 .methodDef .methodPtr = .ok methods ∧
      type =
        { token := TableId.typeDef.token row, namespaceName, name, flags
          genericParameters := genericNamesOf generics (TableId.typeDef.token row)
          declaringType := (nesting.reverse.lookup row).map TableId.typeDef.token
          fields := (fields.filter fun r => 1 ≤ r ∧ r ≤ metadata.tables.rows .field).map
            TableId.field.token
          methods := (methods.filter fun r => 1 ≤ r ∧ r ≤ metadata.tables.rows .methodDef).map
            TableId.methodDef.token } := by
  unfold typeSkeleton at h
  rcases Outcome.bind_eq_ok.mp h with ⟨fields, hfields, hmethods⟩
  rcases Outcome.bind_eq_ok.mp hmethods with ⟨methods, hlisted, hnamespace⟩
  rcases Outcome.bind_eq_ok.mp hnamespace with ⟨namespaceName, _, hname⟩
  rcases Outcome.bind_eq_ok.mp hname with ⟨name, _, hflags⟩
  rcases Outcome.bind_eq_ok.mp hflags with ⟨flags, _, hpure⟩
  exact ⟨fields, methods, namespaceName, name, flags, hfields, hlisted,
    (Outcome.pure_eq_ok.mp hpure).symm⟩

theorem typeSkeleton_ok {nesting : List (Nat × Nat)} {generics : List GenericParameterRow}
    {row : Nat} {type : TypeDefinition}
    (h : metadata.typeSkeleton nesting generics row = .ok type) :
    type.token = TableId.typeDef.token row ∧
      type.declaringType = (nesting.reverse.lookup row).map TableId.typeDef.token := by
  rcases typeSkeleton_eq h with ⟨fields, methods, namespaceName, name, flags, -, -, heq⟩
  rw [heq]
  exact ⟨rfl, rfl⟩

/-- The types as they are before they are linked. -/
theorem typeSkeletons_ok {types : Array TypeDefinition} (h : metadata.typeSkeletons = .ok types) :
    ∃ nesting generics unlinked, metadata.nesting = .ok nesting ∧
      (metadata.rows .genericParam).mapM metadata.genericParameter = .ok generics ∧
      (metadata.rows .typeDef).mapM (metadata.typeSkeleton nesting generics) = .ok unlinked ∧
      types = linkNesting unlinked.toArray := by
  unfold typeSkeletons at h
  rcases Outcome.bind_eq_ok.mp h with ⟨nesting, hnesting, hgenerics⟩
  rcases Outcome.bind_eq_ok.mp hgenerics with ⟨generics, hread, htypes⟩
  rcases Outcome.bind_eq_ok.mp htypes with ⟨unlinked, hunlinked, hpure⟩
  exact ⟨nesting, generics, unlinked, hnesting, hread, hunlinked,
    (Outcome.pure_eq_ok.mp hpure).symm⟩

theorem size_typeSkeletons {types : Array TypeDefinition}
    (h : metadata.typeSkeletons = .ok types) : types.size = metadata.tables.rows .typeDef := by
  rcases typeSkeletons_ok h with ⟨nesting, generics, unlinked, _, _, hunlinked, heq⟩
  rw [heq, linkNesting, Array.size_mapIdx, List.size_toArray]
  exact (mapM_rows hunlinked).1

/-- A type lists the types whose last row names it. -/
theorem mem_nestedTypes {types : Array TypeDefinition} (h : metadata.typeSkeletons = .ok types)
    {nesting : List (Nat × Nat)} (hnesting : metadata.nesting = .ok nesting) {index : Nat}
    {type : TypeDefinition} (htype : types[index]? = some type) {inner : Token} :
    inner ∈ type.nestedTypes ↔
      ∃ row holder, 1 ≤ row ∧ row ≤ metadata.tables.rows .typeDef ∧
        nesting.reverse.lookup row = some holder ∧
        (TableId.typeDef.token holder).row = index + 1 ∧ inner = TableId.typeDef.token row := by
  rcases typeSkeletons_ok h with ⟨read, generics, unlinked, hread, _, hunlinked, heq⟩
  have hsame : read = nesting := by
    rw [hnesting] at hread
    exact (Except.ok.inj hread).symm
  rw [hsame] at hunlinked
  rcases mapM_rows hunlinked with ⟨hlength, hrows⟩
  have hlisted : type.nestedTypes =
      (unlinked.filter fun nested => nested.declaringType.any (·.row == index + 1)).map
        TypeDefinition.token := by
    rw [heq, linkNesting, Array.getElem?_mapIdx] at htype
    rcases Option.map_eq_some_iff.mp htype with ⟨before, _, hbefore⟩
    rw [← hbefore]
  rw [hlisted, List.mem_map]
  constructor
  · rintro ⟨nested, hnested, htoken⟩
    rcases List.mem_filter.mp hnested with ⟨hmem, hany⟩
    rcases List.mem_iff_getElem.mp hmem with ⟨place, hplace, hat⟩
    rcases typeSkeleton_ok (hrows place hplace) with ⟨hown, hdeclaring⟩
    rw [hat] at hown hdeclaring
    rw [hdeclaring, Option.any_map] at hany
    rcases Option.any_eq_true_iff_get _ _ |>.mp hany with ⟨hsome, hholder⟩
    refine ⟨place + 1, _, by omega, by omega, (Option.some_get hsome).symm,
      by simpa using hholder, ?_⟩
    rw [← htoken, hown]
  · rintro ⟨row, holder, hone, hle, hlookup, hholder, hinner⟩
    have hplace : row - 1 < unlinked.length := by omega
    rcases typeSkeleton_ok (hrows (row - 1) hplace) with ⟨hown, hdeclaring⟩
    rw [Nat.sub_add_cancel hone] at hown hdeclaring
    refine ⟨unlinked[row - 1], List.mem_filter.mpr ⟨List.getElem_mem hplace, ?_⟩, ?_⟩
    · rw [hdeclaring, hlookup]
      simpa using hholder
    · rw [hown, hinner]

/-- A module is made of the references, the resources and the types that have been read first, pass
by pass; the passes resolve signatures with what stands in the rows of constructed types. -/
theorem toModule_passes {name : String} {m : CodeModule} (h : metadata.toModule name = .ok m) :
    ∃ (scope : TypeScope)
      (start withHierarchy withFields withMethods withProperties withEvents withAccessors :
        CodeModule),
      metadata.typeSkeletons = .ok start.types ∧
        metadata.addHierarchy scope start = .ok withHierarchy ∧
        metadata.addFields scope withHierarchy = .ok withFields ∧
        metadata.addMethods scope withFields = .ok withMethods ∧
        metadata.addProperties scope withMethods = .ok withProperties ∧
        metadata.addEvents scope withProperties = .ok withEvents ∧
        metadata.addAccessors withEvents = .ok withAccessors ∧
        metadata.addConstants withAccessors = .ok m ∧
        (metadata.rows .assemblyRef).mapM metadata.reference = .ok start.references.toList ∧
        (metadata.rows .manifestResource).mapM (metadata.resource start.references) =
          .ok start.resources.toList ∧
        (metadata.rows .typeSpec).mapM (fun row => metadata.blob .typeSpec row 0) =
          .ok scope.constructed.toList ∧
        metadata.typeReferences start.references = .ok scope.references ∧
        scope.definitions = start.types.map fun type => (start.typeName? type.token).getD {} := by
  unfold toModule at h
  rcases Outcome.bind_eq_ok.mp h with ⟨head, _, hassembly⟩
  rcases Outcome.bind_eq_ok.mp hassembly with ⟨assembly, _, hreferences⟩
  rcases Outcome.bind_eq_ok.mp hreferences with ⟨references, hreferred, hresources⟩
  rcases Outcome.bind_eq_ok.mp hresources with ⟨resources, hlisted, hnames⟩
  rcases Outcome.bind_eq_ok.mp hnames with ⟨typeReferences, hnamed, htypes⟩
  rcases Outcome.bind_eq_ok.mp htypes with ⟨types, hskeletons, hconstructed⟩
  rcases Outcome.bind_eq_ok.mp hconstructed with ⟨constructed, hblobs, hhierarchy⟩
  rcases Outcome.bind_eq_ok.mp hhierarchy with ⟨withHierarchy, hwithHierarchy, hfields⟩
  rcases Outcome.bind_eq_ok.mp hfields with ⟨withFields, hwithFields, hmethods⟩
  rcases Outcome.bind_eq_ok.mp hmethods with ⟨withMethods, hwithMethods, hproperties⟩
  rcases Outcome.bind_eq_ok.mp hproperties with ⟨withProperties, hwithProperties, hevents⟩
  rcases Outcome.bind_eq_ok.mp hevents with ⟨withEvents, hwithEvents, haccessors⟩
  rcases Outcome.bind_eq_ok.mp haccessors with ⟨withAccessors, hwithAccessors, hconstants⟩
  exact ⟨_, _, withHierarchy, withFields, withMethods, withProperties, withEvents, withAccessors,
    hskeletons, hwithHierarchy, hwithFields, hwithMethods, hwithProperties, hwithEvents,
    hwithAccessors, hconstants, hreferred, hlisted, hblobs, hnamed, rfl⟩

/-- Later passes only add to the types that have been read first. -/
theorem toModule_skeletons {name : String} {m : CodeModule} (h : metadata.toModule name = .ok m) :
    ∃ types, metadata.typeSkeletons = .ok types ∧ types.size = metadata.tables.rows .typeDef ∧
      m.skeletons = types.map TypeDefinition.skeleton := by
  rcases toModule_passes h with ⟨scope, start, withHierarchy, withFields, withMethods,
    withProperties, withEvents, withAccessors, hskeletons, hwithHierarchy, hwithFields,
    hwithMethods, hwithProperties, hwithEvents, hwithAccessors, hconstants, _⟩
  have hsize := size_typeSkeletons hskeletons
  refine ⟨start.types, hskeletons, hsize, ?_⟩
  calc m.skeletons
      = withAccessors.skeletons := addConstants_skeletons hconstants
    _ = withEvents.skeletons := addAccessors_skeletons hwithAccessors
    _ = withProperties.skeletons := addEvents_skeletons hwithEvents
    _ = withMethods.skeletons := addProperties_skeletons hwithProperties
    _ = withFields.skeletons := addMethods_skeletons hwithMethods
    _ = withHierarchy.skeletons := addFields_skeletons hwithFields
    _ = start.types.map TypeDefinition.skeleton := addHierarchy_skeletons hwithHierarchy hsize

/-- The types of a module are nested as they have been read first. -/
theorem toModule_nestTable {name : String} {m : CodeModule} (h : metadata.toModule name = .ok m) :
    ∃ types, metadata.typeSkeletons = .ok types ∧ types.size = metadata.tables.rows .typeDef ∧
      m.nestTable = types.map TypeDefinition.nest := by
  have hnest (types : Array TypeDefinition) :
      (types.map TypeDefinition.skeleton).map TypeDefinition.nest =
        types.map TypeDefinition.nest := by
    rw [Array.map_map]
    rfl
  rcases toModule_skeletons h with ⟨types, hskeletons, hsize, hsame⟩
  refine ⟨types, hskeletons, hsize, ?_⟩
  rw [CodeModule.nestTable, ← hnest, ← CodeModule.skeletons, hsame, hnest]

end ImageMetadata

/-!
## Circles
-/

/-- The rows record that a type stands inside another one: of the rows about the inner type, the
last one names the outer type, and both types are among the `count` types of the module. -/
def Encloses (nesting : List (Nat × Nat)) (count : Nat) (outer inner : Token) : Prop :=
  1 ≤ outer.row ∧ outer.row ≤ count ∧
    ∃ row holder, 1 ≤ row ∧ row ≤ count ∧ nesting.reverse.lookup row = some holder ∧
      outer = TableId.typeDef.token holder ∧ inner = TableId.typeDef.token row

namespace CodeModule

theorem nestedTypes_of_nestTable {m : CodeModule} {types : Array TypeDefinition}
    (h : m.nestTable = types.map TypeDefinition.nest) {index : Nat} {type : TypeDefinition}
    (htype : m.types[index]? = some type) :
    ∃ before, types[index]? = some before ∧ type.nestedTypes = before.nestedTypes := by
  have hat : (types.map TypeDefinition.nest)[index]? = some type.nest := by
    rw [← h, nestTable, Array.getElem?_map, htype]
    rfl
  rw [Array.getElem?_map] at hat
  rcases Option.map_eq_some_iff.mp hat with ⟨before, hbefore, hnest⟩
  exact ⟨before, hbefore, (congrArg (fun nest => nest.2.2) hnest).symm⟩

/-- The nested types of a module that has been loaded are those that the rows record. -/
theorem nests_iff_encloses {metadata : ImageMetadata} {name : String} {m : CodeModule}
    (h : metadata.toModule name = .ok m) {nesting : List (Nat × Nat)}
    (hnesting : metadata.nesting = .ok nesting) (outer inner : Token) :
    m.Nests outer inner ↔ Encloses nesting (metadata.tables.rows .typeDef) outer inner := by
  rcases ImageMetadata.toModule_nestTable h with ⟨types, hskeletons, hsize, hnests⟩
  have hcount : m.types.size = metadata.tables.rows .typeDef := by
    have hsizes := congrArg Array.size hnests
    rw [nestTable, Array.size_map, Array.size_map, hsize] at hsizes
    exact hsizes
  constructor
  · rintro ⟨type, htype, hmem⟩
    rcases type?_eq_some.mp htype with ⟨htable, hrow, hget⟩
    have hlt : outer.row - 1 < m.types.size := (Array.getElem?_eq_some_iff.mp hget).1
    rcases nestedTypes_of_nestTable hnests hget with ⟨before, hbefore, hlists⟩
    rw [hlists, ImageMetadata.mem_nestedTypes hskeletons hnesting hbefore] at hmem
    rcases hmem with ⟨row, holder, hone, hle, hlookup, hholder, hinner⟩
    refine ⟨by omega, by omega, row, holder, hone, hle, hlookup, ?_, hinner⟩
    refine Token.ext_parts ?_ ?_
    · rw [htable, TableId.table_token]
    · rw [hholder]
      omega
  · rintro ⟨hone, hle, row, holder, hrow, hrowLe, hlookup, houter, hinner⟩
    have hlt : outer.row - 1 < m.types.size := by omega
    have hget : m.types[outer.row - 1]? = some m.types[outer.row - 1] :=
      Array.getElem?_eq_getElem hlt
    refine ⟨m.types[outer.row - 1], type?_eq_some.mpr ⟨?_, by omega, hget⟩, ?_⟩
    · rw [houter, TableId.table_token]
    · rcases nestedTypes_of_nestTable hnests hget with ⟨before, hbefore, hlists⟩
      rw [hlists, ImageMetadata.mem_nestedTypes hskeletons hnesting hbefore]
      refine ⟨row, holder, hrow, hrowLe, hlookup, ?_, hinner⟩
      rw [← houter]
      omega

/-!
## Listings of loaded modules
-/

variable {m : CodeModule}

theorem ShowsInside.toNests {opens : TypeDefinition → Bool} {outer inner : Token}
    (h : m.ShowsInside opens outer inner) : m.Nests outer inner := by
  rcases h with ⟨type, htype, _, hmem, _⟩
  exact ⟨type, htype, hmem⟩

theorem isSome_of_transGen_nests {outer inner : Token}
    (h : Relation.TransGen m.Nests outer inner) : (m.type? outer).isSome := by
  rcases Relation.TransGen.head'_iff.mp h with ⟨_, ⟨type, htype, _⟩, _⟩
  rw [htype]
  rfl

/-- Where every type is opened, a chain of nested types that ends at a type is written. -/
theorem transGen_showsInside {outer inner : Token} (h : Relation.TransGen m.Nests outer inner)
    (hinner : (m.type? inner).isSome) :
    Relation.TransGen (m.ShowsInside fun _ => true) outer inner := by
  induction h using Relation.TransGen.head_induction_on with
  | single hstep =>
      rcases hstep with ⟨type, htype, hmem⟩
      exact Relation.TransGen.single ⟨type, htype, rfl, hmem, hinner⟩
  | head hstep hrest ih =>
      rcases hstep with ⟨type, htype, hmem⟩
      exact ih.head ⟨type, htype, rfl, hmem, isSome_of_transGen_nests hrest⟩

/-- All types of a module are written in all dialects if and only if none is nested in itself. -/
theorem listings_end_iff :
    (∀ dialect token, (m.type? token).isSome →
        ∃ text, Listing.ofType dialect m token = .ok text) ↔
      ∀ token, ¬ Relation.TransGen m.Nests token token := by
  constructor
  · intro hends token hcircle
    have htoken := isSome_of_transGen_nests hcircle
    refine (Listing.ofType_ok_iff htoken .il).mp (hends .il token htoken) ?_
    exact ⟨token, Relation.ReflTransGen.refl, transGen_showsInside hcircle htoken⟩
  · intro hfree dialect token htoken
    refine (Listing.ofType_ok_iff htoken dialect).mpr ?_
    rintro ⟨inner, _, hcircle⟩
    exact hfree inner (Relation.TransGen.mono (fun _ _ hstep => hstep.toNests) _ _ hcircle)

/-- When the types of a loaded module can all be written: the nested types of a module form a
circle exactly if the rows that say which type stands inside which do, and exactly then some
listing does not end. -/
theorem listings_end_iff_rows_acyclic {image : Image} {name : String}
    (h : ofImage image name = .ok m) :
    ∃ metadata nesting, ImageMetadata.ofImage image = .ok metadata ∧
      metadata.nesting = .ok nesting ∧
      ((∀ token, ¬ Relation.TransGen m.Nests token token) ↔
        ∀ token, ¬ Relation.TransGen
          (Encloses nesting (metadata.tables.rows .typeDef)) token token) ∧
      ((∀ dialect token, (m.type? token).isSome →
          ∃ text, Listing.ofType dialect m token = .ok text) ↔
        ∀ token, ¬ Relation.TransGen
          (Encloses nesting (metadata.tables.rows .typeDef)) token token) := by
  rcases Outcome.bind_eq_ok.mp h with ⟨metadata, hmetadata, hmodule⟩
  rcases ImageMetadata.toModule_nestTable hmodule with ⟨types, hskeletons, _, _⟩
  rcases ImageMetadata.typeSkeletons_ok hskeletons with ⟨nesting, _, _, hnesting, _⟩
  have hsame : m.Nests = Encloses nesting (metadata.tables.rows .typeDef) := by
    funext outer inner
    exact propext (nests_iff_encloses hmodule hnesting outer inner)
  refine ⟨metadata, nesting, hmetadata, hnesting, by rw [hsame], ?_⟩
  rw [← hsame]
  exact listings_end_iff

theorem listings_end_iff_rows_acyclic_two_types :
    ∃ m, ofImage (SmallImage.ofNesting 2 [(2, 1)]) "" = .ok m ∧
      ∃ metadata nesting,
        ImageMetadata.ofImage (SmallImage.ofNesting 2 [(2, 1)]) = .ok metadata ∧
        metadata.nesting = .ok nesting ∧
        ((∀ token, ¬ Relation.TransGen m.Nests token token) ↔
          ∀ token, ¬ Relation.TransGen
            (Encloses nesting (metadata.tables.rows .typeDef)) token token) ∧
        ((∀ dialect token, (m.type? token).isSome →
            ∃ text, Listing.ofType dialect m token = .ok text) ↔
          ∀ token, ¬ Relation.TransGen
            (Encloses nesting (metadata.tables.rows .typeDef)) token token) := by
  have hloads : (ofImage (SmallImage.ofNesting 2 [(2, 1)]) "").toOption.isSome = true := by
    decide +kernel
  cases hm : ofImage (SmallImage.ofNesting 2 [(2, 1)]) "" with
  | ok m => exact ⟨m, rfl, listings_end_iff_rows_acyclic hm⟩
  | error error =>
      rw [hm] at hloads
      cases hloads

/-- A type whose row says that it stands inside itself is loaded and cannot be written. -/
theorem type_inside_itself :
    ∃ m, ofImage (SmallImage.ofNesting 1 [(1, 1)]) "" = .ok m ∧
      Relation.TransGen m.Nests (TableId.typeDef.token 1) (TableId.typeDef.token 1) ∧
      Listing.ofType .il m (TableId.typeDef.token 1) = .error .stackOverflow ∧
      Listing.ofType .csharpLatest m (TableId.typeDef.token 1) = .error .stackOverflow := by
  have hloads : (ofImage (SmallImage.ofNesting 1 [(1, 1)]) "").toOption.any (fun m =>
      (m.type? (TableId.typeDef.token 1)).any
          (fun type => type.nestedTypes.contains (TableId.typeDef.token 1)) &&
        decide (Listing.ofType .il m (TableId.typeDef.token 1) = .error .stackOverflow) &&
        decide (Listing.ofType .csharpLatest m (TableId.typeDef.token 1) = .error .stackOverflow))
      = true := by
    decide +kernel
  cases hm : ofImage (SmallImage.ofNesting 1 [(1, 1)]) "" with
  | ok m =>
      rw [hm] at hloads
      simp only [Except.toOption, Option.any_some, Bool.and_eq_true, decide_eq_true_eq] at hloads
      rcases hloads with ⟨⟨hlisted, hil⟩, hcsharp⟩
      rcases (Option.any_eq_true _ _).mp hlisted with ⟨type, htype, hmem⟩
      have hstep : m.Nests (TableId.typeDef.token 1) (TableId.typeDef.token 1) :=
        ⟨type, htype, List.contains_iff_mem.mp hmem⟩
      exact ⟨m, rfl, Relation.TransGen.single hstep, hil, hcsharp⟩
  | error error =>
      rw [hm] at hloads
      cases hloads

end CodeModule
end AssemblyBrowser
