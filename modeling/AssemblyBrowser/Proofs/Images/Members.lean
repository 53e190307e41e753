import AssemblyBrowser.Proofs.Images.Supertypes

/-!
# Members are read back

A member is read with its name, its flags and its signature, and gets the type
that lists it as its owner. Properties are listed by a table of their own, and
every type gets the properties that it owns in the end.

The signature of a method tells the types of its parameters, and rows of their
own tell the names of those that have one. Each such row says which parameter it
names, so parameters without a name need no row.
-/

namespace AssemblyBrowser

namespace ModuleDraft

variable {module : ModuleDraft}

/-- A field before its value has been read. -/
def plainField (module : ModuleDraft) (field : Nat × FieldDraft) (row : Nat) : FieldDefinition :=
  { module.shownField field row with constant := none }

def plainFields (module : ModuleDraft) : List FieldDefinition :=
  (numbered module.fields).map fun (field, row) => module.plainField field row

/-- A property before its accessors have been read. -/
def plainProperty (module : ModuleDraft) (property : Nat × PropertyDraft) (row : Nat) :
    PropertyDefinition :=
  { module.shownProperty property row with getter := none, setter := none }

def plainProperties (module : ModuleDraft) : List PropertyDefinition :=
  (numbered module.properties).map fun (property, row) => module.plainProperty property row

/-- The lists of properties hold all properties. -/
theorem flatMap_propertyLists (module : ModuleDraft) :
    module.propertyLists.flatMap Prod.snd = module.types.flatMap TypeDraft.properties := by
  rw [propertyLists, flatMap_nonempty (fun _ => rfl), ← map_fst_numbered module.types,
    List.flatMap_map, map_fst_numbered]

theorem memberCount_propertyLists (module : ModuleDraft) :
    memberCount Prod.snd module.propertyLists = memberCount TypeDraft.properties module.types := by
  rw [← length_flatMap_members, flatMap_propertyLists, length_flatMap_members]

/-- The owners that the lists of properties tell. -/
theorem owners_propertyLists (module : ModuleDraft) :
    ((numbered module.propertyLists).flatMap fun (list, _) =>
        List.replicate list.2.length (TableId.typeDef.token list.1)) =
      module.properties.map fun (row, _) => TableId.typeDef.token row := by
  have hlists : ((numbered module.propertyLists).flatMap fun (list, _) =>
      List.replicate list.2.length (TableId.typeDef.token list.1)) =
        module.propertyLists.flatMap fun list =>
          List.replicate list.2.length (TableId.typeDef.token list.1) := by
    conv => rhs; rw [← map_fst_numbered module.propertyLists, List.flatMap_map]
  rw [hlists, propertyLists, flatMap_nonempty (fun _ => rfl), properties, map_owned]

/-- A type owns the properties that are its own. -/
theorem filter_plainProperties (hsmall : module.types.length < 0x1000000) {type : TypeDraft}
    {row : Nat} (htype : itemAt? module.types row = some type) :
    (module.plainProperties.filter (·.declaringType.row == row)).map (·.token) =
      (memberRows TypeDraft.properties module.types type row).map TableId.property.token := by
  have howner : (numbered module.properties).filter
      (fun property => (TableId.typeDef.token property.1.1).row == row) =
        (numbered module.properties).filter fun property => property.1.1 == row := by
    refine List.filter_congr fun property hmem => ?_
    obtain ⟨⟨owner, property⟩, place⟩ := property
    have hbounds := mem_owned (itemAt?_mem (mem_numbered.mp hmem))
    have hrow : (TableId.typeDef.token owner).row = owner := Token.row_ofParts _ _ (by omega)
    dsimp only
    rw [hrow]
  rw [plainProperties, List.filter_map, List.map_map, ← rows_filter_owned htype, List.map_map]
  exact congrArg (List.map _) howner

end ModuleDraft

namespace ImageDraft

section Members

variable {metadata : ImageMetadata} {draft : ImageDraft} {module : ModuleDraft}
  {order : List AccessorDraft} {m : CodeModule} (holds : Holds metadata draft)
  (encodes : draft.Encodes module order) (wellFormed : module.WellFormed)

/-- A blob that holds what a decoder reads is decoded. -/
theorem Holds.decoded {α : Type} (holds : Holds metadata draft) {decoder : Decoder α}
    {value : α} {table : TableId} {row column index : Nat} {bytes : List UInt8}
    (hindex : metadata.tables.value table row column = .ok index)
    (hblob : draft.BlobAt index bytes) (hreads : Decoder.Reads decoder bytes value) :
    (metadata.blob table row column).bind decoder.parse = .ok value := by
  have hparse := Decoder.parse_of_reads hreads []
  rw [List.append_nil] at hparse
  rw [holds.blob hindex hblob]
  exact hparse

theorem typeGenerics_eq {types : List TypeDefinition} (htypes : m.types = types.toArray)
    (hnone : ∀ type ∈ types, type.genericParameters = []) (token : Token) :
    ImageMetadata.typeGenerics m token = [] := by
  unfold ImageMetadata.typeGenerics
  cases htype : m.type? token with
  | none => rfl
  | some type =>
      have hat := (CodeModule.type?_eq_some.mp htype).2.2
      rw [htypes, List.getElem?_toArray] at hat
      exact hnone type (List.mem_of_getElem? hat)

theorem typeGenerics_derivedTypes (htypes : m.types = module.derivedTypes.toArray)
    (token : Token) : ImageMetadata.typeGenerics m token = [] := by
  refine typeGenerics_eq htypes (fun type hmem => ?_) token
  obtain ⟨_, -, rfl⟩ := List.mem_map.mp hmem
  rfl

/-- A member belongs to the type in whose row it stands. -/
theorem ownerOf_member {β : Type} {members : List (Nat × β)} {member : Nat × β} {row : Nat}
    (h : itemAt? members row = some member) :
    ImageMetadata.ownerOf
        (members.map fun (owner, _) => TableId.typeDef.token owner).toArray row =
      .ok (TableId.typeDef.token member.1) := by
  refine ownerOf_eq ?_
  rw [itemAt?_map, h]
  rfl

/-- Types own the members that they list. -/
theorem owners_of_types {β : Type} {members : TypeDraft → List β} {target : TableId}
    {column : Nat} {listed : TypeDefinition → List Token}
    (htypes : m.types = module.derivedTypes.toArray)
    (hlists : ListsMembers metadata .typeDef target column members module.types)
    (hlisted : ∀ row type, listed (module.derivedType type row) =
      (memberRows members module.types type row).map target.token) :
    ImageMetadata.ownersFromLists m.types listed (metadata.tables.rows target) =
      .ok ((owned members module.types).map fun (owner, _) =>
        TableId.typeDef.token owner).toArray := by
  have howners := @ownersFromLists_eq _ _ members module.types target module.derivedType listed
    (fun row type _ => hlisted row type) hlists.target_lt
  rw [htypes, hlists.target, map_owned]
  exact howners

/-- The flags of a member have room in sixteen bits. -/
theorem RowHolds.flags_mod {table : TableId} {row flags : Nat} {cells : List Nat}
    (hrow : RowHolds metadata table row cells) (column : Nat) (hcell : cells[column]? = some flags)
    (hwidth : table.smallWidths[column]? = some 2) : flags % UInt16.size = flags :=
  Nat.mod_eq_of_lt (hrow.word_lt column hcell hwidth)

/-- What belongs to a type stands in its list of members. -/
theorem exists_owner {β : Type} {members : TypeDraft → List β} {member : Nat × β}
    (hmem : member ∈ owned members module.types) :
    ∃ type ∈ module.types, member.2 ∈ members type := by
  obtain ⟨⟨type, row⟩, htype, hmember⟩ := List.mem_flatMap.mp hmem
  obtain ⟨inner, hinner, rfl⟩ := List.mem_map.mp hmember
  exact ⟨type, itemAt?_mem (mem_numbered.mp htype), hinner⟩

/-!
## Fields
-/

include holds encodes wellFormed

theorem addFields_eq (htypes : m.types = module.derivedTypes.toArray) :
    metadata.addFields module.scope m = .ok { m with fields := module.plainFields.toArray } := by
  have howners : ImageMetadata.ownersFromLists m.types TypeDefinition.fields
      (metadata.tables.rows .field) =
        .ok (module.fields.map fun (owner, _) => TableId.typeDef.token owner).toArray :=
    owners_of_types htypes (fields_listed holds encodes) fun _ _ => rfl
  have hgenerics := typeGenerics_derivedTypes htypes
  refine Outcome.bind_ok howners (Outcome.bind_ok (a := module.plainFields)
    (mapM_written holds encodes.fields fun row field cells hfield hform hrow => ?_) rfl)
  obtain ⟨type, htype, hin⟩ := exists_owner (itemAt?_mem hfield)
  have hformed := (wellFormed.types type htype).fields _ hin
  cases hform with
  | mk hname hform hblob =>
      have hvalue : metadata.tables.value .field row 0 = .ok field.2.flags := hrow.value rfl
      have hsignature : (metadata.blob .field row 2).bind Signature.field.parse =
          .ok field.2.type :=
        holds.decoded (hrow.value rfl) hblob (Signature.reads_field hformed.type.depth_le hform)
      rw [ownerOf_member hfield, Outcome.ok_bind]
      dsimp only
      rw [holds.string (hrow.value rfl) hname hformed.name, Outcome.ok_bind, hvalue,
        Outcome.ok_bind, hsignature, hgenerics, ModuleDraft.scope_signatureOrObject hformed.type,
        Outcome.ok_bind, hrow.flags_mod 0 rfl rfl]
      rfl

/-!
## Properties
-/

omit wellFormed in
theorem properties_listed : ListsMembers metadata .propertyMap .property 1 Prod.snd
    module.propertyLists := by
  refine listsMembers_of_written holds encodes.propertyMaps ?_ (by decide)
    fun row list cells hform => ?_
  · rw [encodes.properties.length_eq, ModuleDraft.properties, length_owned,
      ModuleDraft.memberCount_propertyLists]
  · cases hform
    rfl

omit wellFormed in
theorem propertyOwners_eq : metadata.ownersFromMap .propertyMap .property .propertyPtr =
    .ok (module.properties.map fun (row, _) => TableId.typeDef.token row).toArray := by
  have hpointers : metadata.tables.rows .propertyPtr = 0 := by
    rw [holds.rows, encodes.unused .propertyPtr (by decide)]
    rfl
  rw [← ModuleDraft.owners_propertyLists]
  refine ownersFromMap_eq holds encodes.propertyMaps (properties_listed holds encodes) hpointers
    fun row list cells hform => ?_
  cases hform
  rfl

omit encodes wellFormed in
theorem propertyTypes_eq {property : PropertyDraft} {row : Nat} {cells : List Nat}
    (hformed : module.PropertyWellFormed property) (hform : draft.PropertyRow property cells)
    (hrow : RowHolds metadata .property row cells) :
    metadata.propertyTypes module.scope {} row = .ok (property.type.shown module.nameOf,
      property.parameters.map (TypeSignature.shown module.nameOf)) := by
  cases hform with
  | mk hname hform hblob =>
      have hdepth : property.signature.depth ≤ Signature.maxDepth :=
        Nat.max_le.mpr ⟨hformed.type.depth_le, TypeSignature.listDepth_le fun type hmem =>
          (hformed.parameters type hmem).depth_le⟩
      have hsignature : (metadata.blob .property row 2).bind Signature.property.parse =
          .ok property.signature :=
        holds.decoded (hrow.value rfl) hblob (Signature.reads_property hdepth hform)
      have hparameters : property.parameters.mapM
          (fun type => module.scope.signatureOrObject {} (.ok type)) =
            .ok (property.parameters.map (TypeSignature.shown module.nameOf)) :=
        Outcome.mapM_of_forall fun type hmem =>
          ModuleDraft.scope_signatureOrObject (hformed.parameters type hmem)
      unfold ImageMetadata.propertyTypes
      rw [hsignature, Error.attempt, Outcome.ok_bind]
      dsimp only [PropertyDraft.signature]
      rw [ModuleDraft.scope_signatureOrObject hformed.type, Outcome.ok_bind, hparameters]
      rfl

theorem addProperties_eq (htypes : m.types = module.derivedTypes.toArray) :
    metadata.addProperties module.scope m = .ok { m with
      properties := module.plainProperties.toArray, types := module.shownTypes.toArray } := by
  have hgenerics := typeGenerics_derivedTypes htypes
  have hsmall : module.types.length < 0x1000000 :=
    Nat.lt_trans (types_lt holds encodes) (by decide)
  have hshown : m.types.mapIdx (fun index type => { type with
      properties := (module.plainProperties.filter
        (·.declaringType.row == index + 1)).map (·.token) }) = module.shownTypes.toArray := by
    rw [htypes, ModuleDraft.derivedTypes, List.mapIdx_toArray]
    refine congrArg List.toArray (mapIdx_numbered fun index type htype => ?_)
    rw [ModuleDraft.filter_plainProperties hsmall htype]
    rfl
  rw [← hshown]
  refine Outcome.bind_ok (propertyOwners_eq holds encodes)
    (Outcome.bind_ok (a := module.plainProperties)
      (mapM_written holds encodes.properties fun row property cells hproperty hform hrow => ?_) rfl)
  obtain ⟨type, htype, hin⟩ := exists_owner (itemAt?_mem hproperty)
  have hformed := (wellFormed.types type htype).properties _ hin
  have htypeAndParameters := propertyTypes_eq holds hformed hform hrow
  cases hform with
  | mk hname =>
      have hvalue : metadata.tables.value .property row 0 = .ok property.2.flags :=
        hrow.value rfl
      rw [ownerOf_member hproperty, Outcome.ok_bind]
      dsimp only
      rw [hgenerics, htypeAndParameters, Outcome.ok_bind]
      dsimp only
      rw [holds.string (hrow.value rfl) hname hformed.name, Outcome.ok_bind, hvalue,
        Outcome.ok_bind, hrow.flags_mod 0 rfl rfl]
      rfl

/-!
## Events
-/

omit wellFormed in
/-- A module that has no events stays as it is. -/
theorem addEvents_eq (htypes : m.types = module.shownTypes.toArray) (hevents : m.events = #[]) :
    metadata.addEvents module.scope m = .ok m := by
  have hsame : m.types.mapIdx (fun index type => { type with
      events := (([] : List EventDefinition).filter
        (·.declaringType.row == index + 1)).map (·.token) }) = m.types := by
    rw [htypes, ModuleDraft.shownTypes, List.mapIdx_toArray]
    exact congrArg List.toArray (mapIdx_numbered fun _ _ _ => rfl)
  have hmaps := rows_unused holds (encodes.unused .eventMap (by decide))
  have hrows := rows_unused holds (encodes.unused .event (by decide))
  unfold ImageMetadata.addEvents ImageMetadata.ownersFromMap
  rw [hmaps, hrows]
  refine congrArg Except.ok ?_
  refine (congrArg (fun types => { m with types, events := #[] }) hsame).trans ?_
  rw [← hevents]

end Members

end ImageDraft

/-!
## Names of parameters
-/

/-- Gives the parameter of a number its name. -/
def nameParameter (parameters : List Parameter) (naming : Nat × String) : List Parameter :=
  parameters.modify (naming.1 - 1) fun parameter => { parameter with name := naming.2 }

theorem length_nameParameter (parameters : List Parameter) (naming : Nat × String) :
    (nameParameter parameters naming).length = parameters.length := List.length_modify ..

theorem nameParameter_middle (before after : List Parameter) (parameter : Parameter)
    (name : String) :
    nameParameter (before ++ parameter :: after) (before.length + 1, name) =
      before ++ { parameter with name := name } :: after :=
  List.modifyTailIdx_add _ 0 before (parameter :: after)

namespace ModuleDraft

variable {module : ModuleDraft}

/-- A parameter before its name has been read. -/
def bareParameter (module : ModuleDraft) (parameter : ParameterDraft) : Parameter where
  type := parameter.type.shown module.nameOf

/-- A method before its role has been read. -/
def plainMethod (module : ModuleDraft) (method : Nat × MethodDraft) (row : Nat) :
    MethodDefinition :=
  { module.shownMethod [] method row with role := none }

def plainMethods (module : ModuleDraft) : List MethodDefinition :=
  (numbered module.methods).map fun (method, row) => module.plainMethod method row

/-- When every parameter that has a name gets it, all are as they are shown. -/
theorem foldl_nameParameter (module : ModuleDraft) (todo : List ParameterDraft)
    (done : List Parameter) :
    ((todo.zipIdx (done.length + 1)).filterMap fun (parameter, number) =>
        parameter.name.map (number, ·)).foldl nameParameter
          (done ++ todo.map module.bareParameter) =
      done ++ todo.map module.shownParameter := by
  induction todo generalizing done with
  | nil => rfl
  | cons first rest ih =>
      have hrest := ih (done ++ [module.shownParameter first])
      rw [List.length_append, List.length_singleton, List.append_assoc, List.append_assoc,
        List.singleton_append, List.singleton_append] at hrest
      rw [List.zipIdx_cons, List.map_cons, List.map_cons, ← hrest]
      cases hname : first.name with
      | none =>
          have hsame : module.shownParameter first = module.bareParameter first := by
            rw [shownParameter, hname]
            rfl
          rw [List.filterMap_cons_none (by dsimp only; rw [hname]; rfl), hsame]
      | some name =>
          have hsame : module.shownParameter first =
              { module.bareParameter first with name := name } := by
            rw [shownParameter, hname]
            rfl
          rw [List.filterMap_cons_some (by dsimp only; rw [hname]; rfl), List.foldl_cons,
            nameParameter_middle, hsame]

theorem namedParameters_shown (module : ModuleDraft) (method : MethodDraft) :
    method.namedParameters.foldl nameParameter (method.parameters.map module.bareParameter) =
      method.parameters.map module.shownParameter :=
  module.foldl_nameParameter method.parameters []

theorem number_le {method : MethodDraft} {naming : Nat × String}
    (hmem : naming ∈ method.namedParameters) :
    1 ≤ naming.1 ∧ naming.1 ≤ method.parameters.length ∧
      ∃ parameter ∈ method.parameters, parameter.name = some naming.2 := by
  obtain ⟨⟨parameter, number⟩, hparameter, hname⟩ := List.mem_filterMap.mp hmem
  obtain ⟨name, hsome, rfl⟩ := Option.map_eq_some_iff.mp hname
  have hitem := mem_numbered.mp hparameter
  exact ⟨(itemAt?_le hitem).1, (itemAt?_le hitem).2, parameter, itemAt?_mem hitem, hsome⟩

end ModuleDraft

namespace ImageDraft

section Methods

variable {metadata : ImageMetadata} {draft : ImageDraft} {module : ModuleDraft}
  {order : List AccessorDraft} {m : CodeModule} (holds : Holds metadata draft)
  (encodes : draft.Encodes module order) (wellFormed : module.WellFormed)

/-- Rows that name parameters name them one after another. -/
theorem nameParameters_eq {namings : List (Nat × String)} {rows : List Nat}
    {parameters : List Parameter} (hpointers : metadata.tables.rows .paramPtr = 0)
    (hrows : List.Forall₂ (fun row (naming : Nat × String) =>
      1 ≤ row ∧ row ≤ metadata.tables.rows .param ∧
        metadata.tables.value .param row 1 = .ok naming.1 ∧
        metadata.string .param row 2 = .ok naming.2) rows namings)
    (hnumbers : ∀ naming ∈ namings, 1 ≤ naming.1 ∧ naming.1 ≤ parameters.length) :
    metadata.nameParameters parameters rows = .ok (namings.foldl nameParameter parameters) := by
  induction hrows generalizing parameters with
  | nil => rfl
  | @cons row naming rows namings hrow _ ih =>
      obtain ⟨hone, hle, hnumber, hname⟩ := hrow
      have hbounds := hnumbers naming List.mem_cons_self
      have hindirect : metadata.tables.indirect .paramPtr row = .ok row := if_pos hpointers
      have hrest := @ih (nameParameter parameters naming) fun other hmem => by
        rw [length_nameParameter]
        exact hnumbers other (List.mem_cons_of_mem _ hmem)
      rw [ImageMetadata.nameParameters, hindirect, Outcome.ok_bind, if_neg (by omega), hnumber,
        Outcome.ok_bind, if_neg (by omega), hname, Outcome.ok_bind, List.foldl_cons, ← hrest]
      rfl

theorem methodTypes_eq {method : MethodDraft} {methods : List (Nat × MethodDraft)} {row : Nat}
    {cells : List Nat} (holds : Holds metadata draft) (hformed : module.MethodWellFormed method)
    (hform : draft.MethodRow methods row method cells)
    (hrow : RowHolds metadata .methodDef row cells) :
    metadata.methodTypes module.scope {} row = .ok (method.result.shown module.nameOf,
      method.parameters.map module.bareParameter) := by
  cases hform with
  | mk hname hform hblob =>
      have hdepth : method.signature.depth ≤ Signature.maxDepth := by
        refine Nat.max_le.mpr ⟨hformed.result.depth_le,
          TypeSignature.listDepth_le fun type hmem => ?_⟩
        obtain ⟨parameter, hparameter, rfl⟩ := List.mem_map.mp hmem
        exact (hformed.parameters parameter hparameter).1.depth_le
      have hsignature : (metadata.blob .methodDef row 4).bind Signature.method.parse =
          .ok method.signature :=
        holds.decoded (hrow.value rfl) hblob (Signature.reads_method hdepth hform)
      have hparameters : (method.parameters.map ParameterDraft.type).mapM (fun type => do
          return ({ type := ← module.scope.signatureOrObject {} (.ok type) } : Parameter)) =
            .ok (method.parameters.map module.bareParameter) := by
        rw [List.mapM_map]
        refine Outcome.mapM_of_forall fun parameter hmem => ?_
        dsimp only [Function.comp_apply]
        rw [ModuleDraft.scope_signatureOrObject (hformed.parameters parameter hmem).1]
        rfl
      unfold ImageMetadata.methodTypes
      rw [hsignature, Error.attempt, Outcome.ok_bind]
      dsimp only [MethodDraft.signature]
      rw [ModuleDraft.scope_signatureOrObject hformed.result, Outcome.ok_bind, hparameters]
      rfl

include holds encodes

theorem parameters_listed : ListsMembers metadata .methodDef .param 5
    (fun (_, method) => MethodDraft.namedParameters method) module.methods := by
  refine listsMembers_of_written holds encodes.methods ?_ (by decide)
    fun row method cells hform => ?_
  · rw [encodes.parameters.length_eq, length_flatMap_members]
  · cases hform
    rfl

omit holds encodes in
theorem method_wellFormed (wellFormed : module.WellFormed) {method : Nat × MethodDraft}
    (hmem : method ∈ module.methods) : module.MethodWellFormed method.2 := by
  obtain ⟨type, htype, hin⟩ := exists_owner hmem
  exact (wellFormed.types type htype).methods _ hin

include wellFormed

/-- The parameters of a method get the names of their rows. -/
theorem parameters_named {method : Nat × MethodDraft} {row : Nat}
    (hmethod : itemAt? module.methods row = some method) :
    metadata.nameParameters (method.2.parameters.map module.bareParameter)
        (memberRows (fun (_, method) => MethodDraft.namedParameters method) module.methods method
          row) =
      .ok (method.2.parameters.map module.shownParameter) := by
  have hlisted := parameters_listed holds encodes
  have hformed := method_wellFormed wellFormed (itemAt?_mem hmethod)
  have hpointers : metadata.tables.rows .paramPtr = 0 := by
    rw [holds.rows, encodes.unused .paramPtr (by decide)]
    rfl
  rw [← module.namedParameters_shown]
  refine nameParameters_eq hpointers (List.forall₂_iff_get.mpr ⟨List.length_range', ?_⟩) ?_
  · intro index hindex hnaming
    have hat : itemAt? (module.methods.flatMap fun (_, method) => method.namedParameters)
        (firstRow (fun (_, method) => MethodDraft.namedParameters method) module.methods row
          + index) = some (method.2.namedParameters[index]) := by
      rw [itemAt?_flatMap hmethod hnaming]
      exact List.getElem?_eq_getElem hnaming
    obtain ⟨cells, hcells, hform⟩ := encodes.parameters.exists_cells hat
    have hbounds := itemAt?_le hat
    have hrow := holds.rowHolds hbounds.1 hcells
    rw [length_flatMap_members, ← hlisted.target] at hbounds
    obtain ⟨-, -, parameter, hmem, hname⟩ :=
      ModuleDraft.number_le (List.getElem_mem hnaming)
    have hplain := (hformed.parameters parameter hmem).2 _ hname
    simp only [List.get_eq_getElem, memberRows, List.getElem_range', Nat.one_mul]
    cases hform with
    | mk htext =>
        exact ⟨hbounds.1, hbounds.2, hrow.value rfl, holds.string (hrow.value rfl) htext hplain⟩
  · intro naming hmem
    obtain ⟨hone, hle, -⟩ := ModuleDraft.number_le hmem
    rw [List.length_map]
    exact ⟨hone, hle⟩

theorem addMethods_eq (htypes : m.types = module.derivedTypes.toArray) :
    metadata.addMethods module.scope m = .ok { m with methods := module.plainMethods.toArray } := by
  have howners : ImageMetadata.ownersFromLists m.types TypeDefinition.methods
      (metadata.tables.rows .methodDef) =
        .ok (module.methods.map fun (owner, _) => TableId.typeDef.token owner).toArray :=
    owners_of_types htypes (methods_listed holds encodes) fun _ _ => rfl
  have htypeGenerics := typeGenerics_derivedTypes htypes
  have hgenerics : (metadata.rows .genericParam).mapM metadata.genericParameter = .ok [] := by
    rw [rows_unused holds (encodes.unused .genericParam (by decide))]
    rfl
  refine Outcome.bind_ok howners (Outcome.bind_ok hgenerics
    (Outcome.bind_ok (a := module.plainMethods)
      (mapM_written holds encodes.methods fun row method cells hmethod hform hrow => ?_) rfl))
  have hformed := method_wellFormed wellFormed (itemAt?_mem hmethod)
  have htypesRead := methodTypes_eq holds hformed hform hrow
  have hrange := (parameters_listed holds encodes).listRange hmethod
  have hnamed := parameters_named holds encodes wellFormed hmethod
  cases hform with
  | mk hname =>
      have hvalue : metadata.tables.value .methodDef row 2 = .ok method.2.flags := hrow.value rfl
      rw [ownerOf_member hmethod, Outcome.ok_bind]
      dsimp only
      rw [htypeGenerics, genericNamesOf_nil, htypesRead, Outcome.ok_bind]
      dsimp only
      rw [hrange, Outcome.ok_bind]
      dsimp only
      rw [Nat.add_sub_cancel_left]
      refine Outcome.bind_ok hnamed ?_
      rw [holds.string (hrow.value rfl) hname hformed.name, Outcome.ok_bind, hvalue,
        Outcome.ok_bind, hrow.flags_mod 2 rfl rfl]
      rfl

end Methods

end ImageDraft

end AssemblyBrowser
