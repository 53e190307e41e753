import AssemblyBrowser.Proofs.Images.MemberLists
import AssemblyBrowser.Proofs.Images.Names

/-!
# Types are read back

Types come out of their rows first with what stands there. Then every type gets
the list of the types inside it, and a nested type the namespace of the outermost
type around it; from these follow the names of all types.
-/

namespace AssemblyBrowser
namespace ModuleDraft

variable {module : ModuleDraft} {type : TypeDraft} {row : Nat}

/-!
## The passes over types
-/

/-- What stands in the row of a type. -/
def rowType (module : ModuleDraft) (type : TypeDraft) (row : Nat) : TypeDefinition where
  token := TableId.typeDef.token row
  namespaceName := type.namespaceName
  name := type.name
  flags := type.flags
  declaringType := type.outer.map TableId.typeDef.token
  fields := (memberRows TypeDraft.fields module.types type row).map TableId.field.token
  methods := (memberRows TypeDraft.methods module.types type row).map TableId.methodDef.token

/-- A type with the types inside it, in the namespace of the outermost type around it. -/
def linkedType (module : ModuleDraft) (type : TypeDraft) (row : Nat) : TypeDefinition :=
  { module.rowType type row with
    namespaceName := NamedRow.namespaceAt module.typeNames row
    nestedTypes := ((numbered module.types).filter fun (inner, _) =>
      inner.outer == some row).map fun (_, inner) => TableId.typeDef.token inner }

def rowTypes (module : ModuleDraft) : List TypeDefinition :=
  (numbered module.types).map fun (type, row) => module.rowType type row

def linkedTypes (module : ModuleDraft) : List TypeDefinition :=
  (numbered module.types).map fun (type, row) => module.linkedType type row

theorem length_typeNames (module : ModuleDraft) :
    module.typeNames.length = module.types.length := List.length_map _

section Rows

variable (htype : itemAt? module.types row = some type)

include htype

theorem outer?_typeNames : NamedRow.outer? module.typeNames row = type.outer := by
  rw [NamedRow.outer?, typeNames, itemAt?_map, htype]
  rfl

theorem nameAt_typeNames : NamedRow.nameAt module.typeNames row = type.name := by
  rw [NamedRow.nameAt, typeNames, itemAt?_map, htype]
  rfl

theorem ownNamespaceAt_typeNames :
    NamedRow.ownNamespaceAt module.typeNames row = type.namespaceName := by
  rw [NamedRow.ownNamespaceAt, typeNames, itemAt?_map, htype]
  rfl

theorem itemAt?_typesOf (pass : TypeDraft → Nat → TypeDefinition) :
    itemAt? ((numbered module.types).map fun (type, row) => pass type row) row =
      some (pass type row) := by
  rw [itemAt?_map, itemAt?_numbered, htype]
  rfl

end Rows

/-- A token of a type leads to what stands in its row. -/
theorem rowOf?_of_itemAt? {α : Type} {items : List α} {item : α} (h : itemAt? items row = some item)
    (table : TableId) (hsmall : row < 0x1000000) :
    TypeScope.rowOf? items.toArray (table.token row) = some item := by
  obtain ⟨hone, hat⟩ := itemAt?_eq_some.mp h
  have hrow : (table.token row).row = row := Token.row_ofParts _ _ hsmall
  rw [TypeScope.rowOf?, hrow, if_neg (by omega), List.getElem?_toArray, hat]

/-!
## Namespaces
-/

/-- The walk outwards over types that have not been linked ends at the outermost one. -/
theorem outermostNamespace?_eq (hnested : NamedRow.WellNested module.typeNames)
    (hsmall : module.types.length < 0x1000000) {around : List Nat}
    (hsurrounded : Surrounded (NamedRow.outer? module.typeNames) row around)
    (hrow : 1 ≤ row ∧ row ≤ module.types.length) {fuel : Nat} (hfuel : around.length < fuel) :
    ImageMetadata.outermostNamespace? module.rowTypes.toArray fuel (TableId.typeDef.token row) =
      some (NamedRow.namespaceAt module.typeNames row) := by
  induction hsurrounded generalizing fuel with
  | @outermost row hnone =>
      obtain ⟨type, htype⟩ := exists_itemAt? hrow.1 hrow.2
      cases fuel with
      | zero => cases hfuel
      | succ fuel =>
          have hrowType := rowOf?_of_itemAt? (itemAt?_typesOf htype module.rowType) .typeDef
            (by omega)
          rw [NamedRow.namespaceAt_of_none hnone, ownNamespaceAt_typeNames htype]
          rw [outer?_typeNames htype] at hnone
          rw [ImageMetadata.outermostNamespace?, rowTypes, hrowType]
          simp only [rowType, hnone, Option.map_none]
  | @inside row next around hsome _ ih =>
      obtain ⟨type, htype⟩ := exists_itemAt? hrow.1 hrow.2
      have hnext := hnested.inside row next hsome
      rw [length_typeNames] at hnext
      cases fuel with
      | zero => cases hfuel
      | succ fuel =>
          have hrowType := rowOf?_of_itemAt? (itemAt?_typesOf htype module.rowType) .typeDef
            (by omega)
          rw [hnested.namespaceAt_of_some hsome, ← ih hnext (Nat.lt_of_succ_lt_succ hfuel)]
          rw [outer?_typeNames htype] at hsome
          conv => lhs; rw [ImageMetadata.outermostNamespace?, rowTypes, hrowType]
          simp only [rowType, hsome, Option.map_some]
          rfl

theorem namespaceName_linked (hnested : NamedRow.WellNested module.typeNames)
    (hsmall : module.types.length < 0x1000000) (htype : itemAt? module.types row = some type) :
    (match type.outer.map TableId.typeDef.token with
      | none => type.namespaceName
      | some outer => (ImageMetadata.outermostNamespace? module.rowTypes.toArray
          module.types.length outer).getD type.namespaceName) =
        NamedRow.namespaceAt module.typeNames row := by
  have houter := outer?_typeNames htype
  cases hown : type.outer with
  | none =>
      rw [NamedRow.namespaceAt_of_none (houter.trans hown), ownNamespaceAt_typeNames htype]
      rfl
  | some outer =>
      rw [hown] at houter
      have hinside := hnested.inside row outer houter
      have hsurrounded := hnested.surrounded hinside
      rw [length_typeNames] at hinside hsurrounded
      rw [Option.map_some]
      dsimp only
      rw [outermostNamespace?_eq hnested hsmall hsurrounded.1 hinside hsurrounded.2,
        Option.getD_some, hnested.namespaceAt_of_some houter]

theorem nestedTypes_linked (hnested : NamedRow.WellNested module.typeNames)
    (hsmall : module.types.length < 0x1000000) (row : Nat) :
    (module.rowTypes.filter fun inner => inner.declaringType.any (·.row == row)).map
        TypeDefinition.token =
      ((numbered module.types).filter fun (inner, _) => inner.outer == some row).map
        fun (_, inner) => TableId.typeDef.token inner := by
  rw [rowTypes, List.filter_map, List.map_map]
  refine congrArg (List.map _) (List.filter_congr fun (inner, place) hmem => ?_)
  have houter := outer?_typeNames (mem_numbered.mp hmem)
  dsimp only [Function.comp_apply, rowType]
  cases hown : inner.outer with
  | none => rfl
  | some outer =>
      have hinside := hnested.inside place outer (houter.trans hown)
      rw [length_typeNames] at hinside
      have hrow : (TableId.typeDef.token outer).row = outer := Token.row_ofParts _ _ (by omega)
      rw [Option.map_some, Option.any_some, hrow]
      rfl

theorem linkNesting_eq (hnested : NamedRow.WellNested module.typeNames)
    (hsmall : module.types.length < 0x1000000) :
    ImageMetadata.linkNesting module.rowTypes.toArray = module.linkedTypes.toArray := by
  have hsize : module.rowTypes.toArray.size = module.types.length := by
    rw [List.size_toArray, rowTypes, List.length_map, length_numbered]
  unfold ImageMetadata.linkNesting
  rw [hsize, List.mapIdx_toArray]
  refine congrArg List.toArray (mapIdx_numbered fun index type htype => ?_)
  dsimp only [linkedType]
  rw [nestedTypes_linked hnested hsmall, ← namespaceName_linked hnested hsmall htype]
  rfl

/-!
## Full names
-/

section Names

variable {m : CodeModule} {pass : TypeDraft → Nat → TypeDefinition}

/-- A pass over the types that leaves the names as they have been linked. -/
structure KeepsNames (module : ModuleDraft) (pass : TypeDraft → Nat → TypeDefinition) : Prop where
  token : ∀ type row, (pass type row).token = TableId.typeDef.token row
  namespaceName : ∀ type row,
    (pass type row).namespaceName = NamedRow.namespaceAt module.typeNames row
  name : ∀ type row, (pass type row).name = type.name
  declaringType : ∀ type row,
    (pass type row).declaringType = type.outer.map TableId.typeDef.token

variable (hpass : module.KeepsNames pass)
  (htypes : m.types = ((numbered module.types).map fun (type, row) => pass type row).toArray)
  (hnested : NamedRow.WellNested module.typeNames) (hsmall : module.types.length < 0x1000000)

include htypes hsmall in
theorem type?_eq (htype : itemAt? module.types row = some type) :
    m.type? (TableId.typeDef.token row) = some (pass type row) := by
  have hbounds := itemAt?_le htype
  have hrow : (TableId.typeDef.token row).row = row := Token.row_ofParts _ _ (by omega)
  have htable : (TableId.typeDef.token row).table = TableId.typeDef.number :=
    TableId.table_token _ _
  have hat := (itemAt?_eq_some.mp (itemAt?_typesOf htype pass)).2
  rw [CodeModule.type?, byRow, hrow, if_pos ⟨htable, by omega⟩, htypes, List.getElem?_toArray, hat]

include hpass htypes hnested hsmall

/-- The walk outwards spells the names around a type. -/
theorem enclosingChain_eq {around : List Nat}
    (hsurrounded : Surrounded (NamedRow.outer? module.typeNames) row around)
    (hrow : 1 ≤ row ∧ row ≤ module.types.length) {fuel : Nat} (hfuel : around.length < fuel) :
    (m.enclosingChain fuel (some (TableId.typeDef.token row))).map TypeDefinition.name =
        (row :: around).map (NamedRow.nameAt module.typeNames) ∧
      (m.enclosingChain fuel (some (TableId.typeDef.token row))).getLast?.map
          TypeDefinition.namespaceName =
        some (NamedRow.namespaceAt module.typeNames row) := by
  induction hsurrounded generalizing fuel with
  | @outermost row hnone =>
      obtain ⟨type, htype⟩ := exists_itemAt? hrow.1 hrow.2
      rw [outer?_typeNames htype] at hnone
      cases fuel with
      | zero => cases hfuel
      | succ fuel =>
          rw [CodeModule.enclosingChain, Option.bind_some, type?_eq htypes hsmall htype]
          dsimp only
          rw [hpass.declaringType, hnone, Option.map_none, CodeModule.enclosingChain_none]
          refine ⟨congrArg (fun name => [name]) ?_, congrArg some (hpass.namespaceName type row)⟩
          rw [hpass.name, nameAt_typeNames htype]
  | @inside row next around hsome _ ih =>
      obtain ⟨type, htype⟩ := exists_itemAt? hrow.1 hrow.2
      have hnext := hnested.inside row next hsome
      rw [length_typeNames] at hnext
      have hspace := hnested.namespaceAt_of_some hsome
      rw [outer?_typeNames htype] at hsome
      cases fuel with
      | zero => cases hfuel
      | succ fuel =>
          obtain ⟨hnames, hlast⟩ := ih hnext (Nat.lt_of_succ_lt_succ hfuel)
          obtain ⟨last, hat, hown⟩ := Option.map_eq_some_iff.mp hlast
          rw [CodeModule.enclosingChain, Option.bind_some, type?_eq htypes hsmall htype]
          dsimp only
          rw [hpass.declaringType, hsome, Option.map_some, List.map_cons, hnames, hpass.name,
            ← nameAt_typeNames htype, List.getLast?_cons, hat, Option.getD_some, Option.map_some,
            hown, hspace]
          exact ⟨rfl, rfl⟩

theorem fullName_eq (hrow : 1 ≤ row ∧ row ≤ module.types.length) :
    m.fullName (TableId.typeDef.token row) = NamedRow.fullName module.typeNames row := by
  have hsurrounded := hnested.surrounded (length_typeNames module ▸ hrow)
  have hsize : m.types.size = module.types.length := by
    rw [htypes, List.size_toArray, List.length_map, length_numbered]
  rw [length_typeNames, ← hsize] at hsurrounded
  obtain ⟨hnames, hlast⟩ := enclosingChain_eq hpass htypes hnested hsmall hsurrounded.1 hrow
    (Nat.lt_succ_of_lt hsurrounded.2)
  unfold CodeModule.fullName CodeModule.qualifiedName CodeModule.enclosingTypes
  dsimp only
  rw [List.map_reverse, hnames, hlast, ← List.map_reverse]
  rfl

theorem typeName?_eq (htype : itemAt? module.types row = some type) :
    m.typeName? (TableId.typeDef.token row) = some (module.definitionName row) := by
  have houter := outer?_typeNames htype
  unfold CodeModule.typeName?
  rw [type?_eq htypes hsmall htype, Option.map_some, hpass.declaringType, hpass.name,
    hpass.namespaceName, definitionName, nameAt_typeNames htype, NamedRow.qualifier, houter]
  cases hsome : type.outer with
  | none => rfl
  | some outer =>
      have hinside := hnested.inside row outer (houter.trans hsome)
      rw [length_typeNames] at hinside
      rw [Option.map_some]
      dsimp only
      rw [fullName_eq hpass htypes hnested hsmall hinside]

theorem typeNames_eq : m.types.map (fun type => (m.typeName? type.token).getD {}) =
    ((List.range' 1 module.types.length).map module.definitionName).toArray := by
  have hnames (types : List TypeDefinition)
      (hsame : types = (numbered module.types).map fun (type, row) => pass type row) :
      types.map (fun type => (m.typeName? type.token).getD {}) =
        (List.range' 1 module.types.length).map module.definitionName := by
    rw [hsame, List.map_map, ← map_row_numbered]
    refine List.map_congr_left fun (type, row) hmem => ?_
    dsimp only [Function.comp_apply]
    rw [hpass.token, typeName?_eq hpass htypes hnested hsmall (mem_numbered.mp hmem),
      Option.getD_some]
  rw [← hnames m.types.toList (by rw [htypes]), ← Array.toList_map, Array.toArray_toList]

end Names

theorem linkedType_keepsNames (module : ModuleDraft) : module.KeepsNames module.linkedType where
  token _ _ := rfl
  namespaceName _ _ := rfl
  name _ _ := rfl
  declaringType _ _ := rfl

end ModuleDraft

/-!
## Rows of types
-/

namespace ImageDraft

theorem genericNamesOf_nil (owner : Token) : ImageMetadata.genericNamesOf [] owner = [] := by
  unfold ImageMetadata.genericNamesOf
  rw [List.filter_nil, List.mergeSort_nil, List.map_nil]

section Types

variable {metadata : ImageMetadata} {draft : ImageDraft} {module : ModuleDraft}
  {order : List AccessorDraft} (holds : Holds metadata draft)
  (encodes : draft.Encodes module order) (wellFormed : module.WellFormed)

include holds encodes

theorem types_lt : module.types.length < 0x10000 := by
  rw [← encodes.types.length_eq]
  by_cases hrows : draft.rows .typeDef = []
  · rw [hrows]
    decide
  · exact holds.rows_lt_of_coded .typeDefOrRef hrows (by decide) (by decide)

theorem fields_listed :
    ListsMembers metadata .typeDef .field 4 TypeDraft.fields module.types := by
  refine listsMembers_of_written holds encodes.types ?_ (by decide) fun row type cells hform => ?_
  · rw [encodes.fields.length_eq, ModuleDraft.fields, length_owned]
  · cases hform
    rfl

theorem methods_listed :
    ListsMembers metadata .typeDef .methodDef 5 TypeDraft.methods module.types := by
  refine listsMembers_of_written holds encodes.types ?_ (by decide) fun row type cells hform => ?_
  · rw [encodes.methods.length_eq, ModuleDraft.methods, length_owned]
  · cases hform
    rfl

/-- The rows say of every type which type is around it. -/
theorem nesting_eq : ∃ nesting, metadata.nesting = .ok nesting ∧
    ∀ row, nesting.reverse.lookup row = (itemAt? module.types row).bind TypeDraft.outer := by
  obtain ⟨ordered, hperm, hwritten⟩ := encodes.nestings
  refine ⟨ordered, ?_, lookup_of_perm hperm⟩
  have hread := @mapM_written metadata draft _ _ .nestedClass ordered _ holds hwritten
    (fun row => do
      let nested ← metadata.tables.value .nestedClass row 0
      let outer ← metadata.tables.value .nestedClass row 1
      return (nested, outer))
    (fun nesting _ => nesting)
    (fun row nesting cells _ hform hrow => by
      cases hform with
      | mk =>
          rw [hrow.value rfl, Outcome.ok_bind, hrow.value rfl]
          rfl)
  exact hread.trans (congrArg Except.ok (map_fst_numbered ordered))

theorem rowType_eq {type : TypeDraft} {row : Nat} {cells : List Nat} {nesting : List (Nat × Nat)}
    (hnesting : nesting.reverse.lookup row = type.outer)
    (hplain : Plain type.namespaceName ∧ Plain type.name)
    (htype : itemAt? module.types row = some type)
    (hform : draft.TypeRow module.types row type cells)
    (hrow : RowHolds metadata .typeDef row cells) :
    metadata.typeSkeleton nesting [] row = .ok (module.rowType type row) := by
  have hunused (table : TableId) (hmem : table ∈ unusedTables) :
      metadata.tables.rows table = 0 := by
    rw [holds.rows, encodes.unused table hmem]
    rfl
  have hfields := fields_listed holds encodes
  have hmethods := methods_listed holds encodes
  have hexisting {β : Type} {members : TypeDraft → List β} {target : TableId}
      (hrows : metadata.tables.rows target = memberCount members module.types) :
      (memberRows members module.types type row).filter
          (fun member => 1 ≤ member ∧ member ≤ metadata.tables.rows target) =
        memberRows members module.types type row := by
    refine List.filter_eq_self.mpr fun member hmember => ?_
    rw [hrows, decide_eq_true_iff]
    exact memberRows_le htype hmember
  cases hform with
  | mk hname hnamespace =>
      have hflags : metadata.tables.value .typeDef row 0 = .ok type.flags := hrow.value rfl
      unfold ImageMetadata.typeSkeleton
      dsimp only
      rw [hfields.listedRows (hunused .fieldPtr (by decide)) htype, Outcome.ok_bind,
        hmethods.listedRows (hunused .methodPtr (by decide)) htype, Outcome.ok_bind,
        holds.string (hrow.value rfl) hnamespace hplain.1, Outcome.ok_bind,
        holds.string (hrow.value rfl) hname hplain.2, Outcome.ok_bind, hflags, Outcome.ok_bind,
        hexisting hfields.target, hexisting hmethods.target, hnesting, genericNamesOf_nil]
      rfl

include wellFormed

theorem typeSkeletons_eq : metadata.typeSkeletons = .ok module.linkedTypes.toArray := by
  obtain ⟨nesting, hnesting, hlookup⟩ := nesting_eq holds encodes
  have hgenerics : metadata.rows .genericParam = [] :=
    rows_unused holds (encodes.unused .genericParam (by decide))
  have htypes : (metadata.rows .typeDef).mapM (metadata.typeSkeleton nesting []) =
      .ok module.rowTypes := by
    refine mapM_written holds encodes.types fun row type cells htype hform hrow => ?_
    have hformed := wellFormed.types type (itemAt?_mem htype)
    refine rowType_eq holds encodes ?_ ⟨hformed.namespaceName, hformed.name⟩ htype hform hrow
    rw [hlookup, htype, Option.bind_some]
  have hsmall : module.types.length < 0x1000000 :=
    Nat.lt_trans (types_lt holds encodes) (by decide)
  unfold ImageMetadata.typeSkeletons
  rw [hnesting, Outcome.ok_bind, hgenerics, List.mapM_nil, pure_bind, htypes, Outcome.ok_bind,
    ModuleDraft.linkNesting_eq wellFormed.typeNesting hsmall]
  rfl

end Types

end ImageDraft
end AssemblyBrowser
