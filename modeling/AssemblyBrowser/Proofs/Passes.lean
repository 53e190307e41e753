import AssemblyBrowser.Proofs.TypeNesting

/-!
# What the passes over rows read

After the rows of types have been read, one pass for each kind of member makes
the members row by row, from an array of owners and from their signatures; two
last passes change members in place. What a pass has read of a member is still
there when the module is complete.
-/

namespace AssemblyBrowser
namespace ImageMetadata

variable {metadata : ImageMetadata} {scope : TypeScope} {m after : CodeModule}

/-!
## Rows

What is read for a member depends on its owner, through the names that types have for their
generic parameters.
-/

/-- A field as the pass over fields reads it. -/
structure FieldRead (metadata : ImageMetadata) (scope : TypeScope) (names : Token → List String)
    (owners : Array Token) (row : Nat) (field : FieldDefinition) : Prop where
  token : field.token = TableId.field.token row
  owner : ownerOf owners row = .ok field.declaringType
  type : scope.signatureOrObject { ofType := names field.declaringType }
    ((metadata.blob .field row 2).bind Signature.field.parse) = .ok field.type

/-- A method as the pass over methods reads it. -/
structure MethodRead (metadata : ImageMetadata) (scope : TypeScope)
    (generics : List GenericParameterRow) (names : Token → List String) (owners : Array Token)
    (row : Nat) (method : MethodDefinition) : Prop where
  token : method.token = TableId.methodDef.token row
  owner : ownerOf owners row = .ok method.declaringType
  genericParameters :
    method.genericParameters = genericNamesOf generics (TableId.methodDef.token row)
  types : ∃ unnamed, metadata.methodTypes scope
      { ofType := names method.declaringType, ofMethod := method.genericParameters } row =
        .ok (method.returnType, unnamed) ∧
    ∃ pointers, metadata.nameParameters unnamed pointers = .ok method.parameters

/-- A property as the pass over properties reads it. -/
structure PropertyRead (metadata : ImageMetadata) (scope : TypeScope)
    (names : Token → List String) (owners : Array Token) (row : Nat)
    (property : PropertyDefinition) : Prop where
  token : property.token = TableId.property.token row
  owner : ownerOf owners row = .ok property.declaringType
  types : metadata.propertyTypes scope { ofType := names property.declaringType } row =
    .ok (property.type, property.parameters)

/-- An event as the pass over events reads it; no generic parameters are known there. -/
structure EventRead (metadata : ImageMetadata) (scope : TypeScope) (owners : Array Token)
    (row : Nat) (event : EventDefinition) : Prop where
  token : event.token = TableId.event.token row
  owner : ownerOf owners row = .ok event.declaringType
  type : ∃ handler, metadata.tables.coded .event row 2 .typeDefOrRef = .ok handler ∧
    (if handler.isNull then .ok .object else scope.tokenOrObject {} handler) = .ok event.type

/-- A type with the supertypes that the pass over types finds. -/
structure SupertypesRead (metadata : ImageMetadata) (scope : TypeScope) (row : Nat)
    (type : TypeDefinition) : Prop where
  base : ∃ extended, metadata.tables.coded .typeDef row 3 .typeDefOrRef = .ok extended ∧
    if extended.isNull then type.base = none
    else ∃ base, scope.tokenOrObject { ofType := type.genericParameters } extended = .ok base ∧
      type.base = some base
  interfaces : ∃ implementations, metadata.implementations = .ok implementations ∧
    ((implementations.filter (·.1 == row)).map Prod.snd).mapM
      (scope.tokenOrObject { ofType := type.genericParameters }) = .ok type.interfaces

/-!
## Passes
-/

theorem addFields_read (h : metadata.addFields scope m = .ok after) :
    ∃ owners fields, ownersFromLists m.types TypeDefinition.fields (metadata.tables.rows .field) =
        .ok owners ∧
      after = { m with fields } ∧ fields.size = metadata.tables.rows .field ∧
      ∀ index field, fields[index]? = some field →
        metadata.FieldRead scope (typeGenerics m) owners (index + 1) field := by
  unfold addFields at h
  rcases Outcome.bind_eq_ok.mp h with ⟨owners, howners, hfields⟩
  rcases Outcome.bind_eq_ok.mp hfields with ⟨fields, hmap, hpure⟩
  rcases mapM_rows hmap with ⟨hlength, hrows⟩
  refine ⟨owners, fields.toArray, howners, (Outcome.pure_eq_ok.mp hpure).symm, hlength, ?_⟩
  intro index field hfield
  rw [List.getElem?_toArray] at hfield
  rcases List.getElem?_eq_some_iff.mp hfield with ⟨hindex, rfl⟩
  rcases Outcome.bind_eq_ok.mp (hrows index hindex) with ⟨declaringType, howner, hname⟩
  rcases Outcome.bind_eq_ok.mp hname with ⟨name, _, hflags⟩
  rcases Outcome.bind_eq_ok.mp hflags with ⟨flags, _, htype⟩
  rcases Outcome.bind_eq_ok.mp htype with ⟨type, htype, hdone⟩
  rw [← Outcome.pure_eq_ok.mp hdone]
  exact ⟨rfl, howner, htype⟩

theorem addMethods_read (h : metadata.addMethods scope m = .ok after) :
    ∃ owners generics methods,
      ownersFromLists m.types TypeDefinition.methods (metadata.tables.rows .methodDef) =
        .ok owners ∧
      (metadata.rows .genericParam).mapM metadata.genericParameter = .ok generics ∧
      after = { m with methods } ∧ methods.size = metadata.tables.rows .methodDef ∧
      ∀ index method, methods[index]? = some method →
        metadata.MethodRead scope generics (typeGenerics m) owners (index + 1) method := by
  unfold addMethods at h
  rcases Outcome.bind_eq_ok.mp h with ⟨owners, howners, hgenerics⟩
  rcases Outcome.bind_eq_ok.mp hgenerics with ⟨generics, hread, hmethods⟩
  rcases Outcome.bind_eq_ok.mp hmethods with ⟨methods, hmap, hpure⟩
  rcases mapM_rows hmap with ⟨hlength, hrows⟩
  refine ⟨owners, generics, methods.toArray, howners, hread, (Outcome.pure_eq_ok.mp hpure).symm,
    hlength, ?_⟩
  intro index method hmethod
  rw [List.getElem?_toArray] at hmethod
  rcases List.getElem?_eq_some_iff.mp hmethod with ⟨hindex, rfl⟩
  rcases Outcome.bind_eq_ok.mp (hrows index hindex) with ⟨declaringType, howner, htypes⟩
  rcases Outcome.bind_eq_ok.mp htypes with ⟨⟨returnType, unnamed⟩, htypes, hrange⟩
  rcases Outcome.bind_eq_ok.mp hrange with ⟨range, _, hparameters⟩
  rcases Outcome.bind_eq_ok.mp hparameters with ⟨parameters, hnamed, hname⟩
  rcases Outcome.bind_eq_ok.mp hname with ⟨name, _, hflags⟩
  rcases Outcome.bind_eq_ok.mp hflags with ⟨flags, _, hdone⟩
  rw [← Outcome.pure_eq_ok.mp hdone]
  exact ⟨rfl, howner, rfl, unnamed, htypes, _, hnamed⟩

theorem addProperties_read (h : metadata.addProperties scope m = .ok after) :
    ∃ owners, ∃ properties : List PropertyDefinition,
      metadata.ownersFromMap .propertyMap .property .propertyPtr = .ok owners ∧
      after = { m with
        properties := properties.toArray
        types := m.types.mapIdx fun index type =>
          { type with
            properties := (properties.filter (·.declaringType.row == index + 1)).map (·.token) } } ∧
      properties.length = metadata.tables.rows .property ∧
      ∀ index property, properties[index]? = some property →
        metadata.PropertyRead scope (typeGenerics m) owners (index + 1) property := by
  unfold addProperties at h
  rcases Outcome.bind_eq_ok.mp h with ⟨owners, howners, hproperties⟩
  rcases Outcome.bind_eq_ok.mp hproperties with ⟨properties, hmap, hpure⟩
  rcases mapM_rows hmap with ⟨hlength, hrows⟩
  refine ⟨owners, properties, howners, (Outcome.pure_eq_ok.mp hpure).symm, hlength, ?_⟩
  intro index property hproperty
  rcases List.getElem?_eq_some_iff.mp hproperty with ⟨hindex, rfl⟩
  rcases Outcome.bind_eq_ok.mp (hrows index hindex) with ⟨declaringType, howner, htypes⟩
  rcases Outcome.bind_eq_ok.mp htypes with ⟨⟨type, parameters⟩, htypes, hname⟩
  rcases Outcome.bind_eq_ok.mp hname with ⟨name, _, hflags⟩
  rcases Outcome.bind_eq_ok.mp hflags with ⟨flags, _, hdone⟩
  rw [← Outcome.pure_eq_ok.mp hdone]
  exact ⟨rfl, howner, htypes⟩

theorem addEvents_read (h : metadata.addEvents scope m = .ok after) :
    ∃ owners, ∃ events : List EventDefinition,
      metadata.ownersFromMap .eventMap .event .eventPtr = .ok owners ∧
      after = { m with
        events := events.toArray
        types := m.types.mapIdx fun index type =>
          { type with
            events := (events.filter (·.declaringType.row == index + 1)).map (·.token) } } ∧
      events.length = metadata.tables.rows .event ∧
      ∀ index event, events[index]? = some event →
        metadata.EventRead scope owners (index + 1) event := by
  unfold addEvents at h
  rcases Outcome.bind_eq_ok.mp h with ⟨owners, howners, hevents⟩
  rcases Outcome.bind_eq_ok.mp hevents with ⟨events, hmap, hpure⟩
  rcases mapM_rows hmap with ⟨hlength, hrows⟩
  refine ⟨owners, events, howners, (Outcome.pure_eq_ok.mp hpure).symm, hlength, ?_⟩
  intro index event hevent
  rcases List.getElem?_eq_some_iff.mp hevent with ⟨hindex, rfl⟩
  rcases Outcome.bind_eq_ok.mp (hrows index hindex) with ⟨declaringType, howner, hhandler⟩
  rcases Outcome.bind_eq_ok.mp hhandler with ⟨handler, hcoded, htype⟩
  have htyped : ∃ type, (if handler.isNull then .ok .object else scope.tokenOrObject {} handler) =
      .ok type ∧ (do
        let name ← metadata.string .event (index + 1) 1
        let flags ← metadata.tables.value .event (index + 1) 0
        return ({
          token := TableId.event.token (index + 1)
          name, declaringType, type
          flags := flags % UInt16.size } : EventDefinition)) = .ok events[index] := by
    dsimp only at htype
    split at htype
    case isTrue hnull =>
      rw [if_pos hnull]
      exact Outcome.bind_eq_ok.mp htype
    case isFalse hnull =>
      rw [if_neg hnull]
      exact Outcome.bind_eq_ok.mp htype
  rcases htyped with ⟨type, htype, hname⟩
  rcases Outcome.bind_eq_ok.mp hname with ⟨name, _, hflags⟩
  rcases Outcome.bind_eq_ok.mp hflags with ⟨flags, _, hdone⟩
  rw [← Outcome.pure_eq_ok.mp hdone]
  exact ⟨rfl, howner, handler, hcoded, htype⟩

theorem addHierarchy_read (h : metadata.addHierarchy scope m = .ok after) :
    ∀ index type, after.types[index]? = some type →
      metadata.SupertypesRead scope (index + 1) type := by
  unfold addHierarchy at h
  rcases Outcome.bind_eq_ok.mp h with ⟨implementations, hread, htypes⟩
  rcases Outcome.bind_eq_ok.mp htypes with ⟨types, hmap, hpure⟩
  rw [← Outcome.pure_eq_ok.mp hpure]
  intro index type htype
  rw [List.getElem?_toArray] at htype
  rcases List.getElem?_eq_some_iff.mp htype with ⟨hindex, rfl⟩
  have hrow := (mapM_rows hmap).2 index hindex
  unfold typeWithHierarchy at hrow
  rcases Outcome.bind_eq_ok.mp hrow with ⟨place, _, hextended⟩
  rcases Outcome.bind_eq_ok.mp hextended with ⟨extended, hcoded, hbefore⟩
  rcases Outcome.bind_eq_ok.mp hbefore with ⟨before, _, hbase⟩
  dsimp only at hbase
  split at hbase
  case isTrue hnull =>
    rcases Outcome.bind_eq_ok.mp hbase with ⟨interfaces, hinterfaces, hdone⟩
    rw [← Outcome.pure_eq_ok.mp hdone]
    exact ⟨⟨extended, hcoded, by rw [if_pos hnull]⟩, implementations, hread, hinterfaces⟩
  case isFalse hnull =>
    rcases Outcome.bind_eq_ok.mp hbase with ⟨base, hfound, hrest⟩
    rcases Outcome.bind_eq_ok.mp hrest with ⟨interfaces, hinterfaces, hdone⟩
    rw [← Outcome.pure_eq_ok.mp hdone]
    refine ⟨⟨extended, hcoded, ?_⟩, implementations, hread, hinterfaces⟩
    rw [if_neg hnull]
    exact ⟨base, hfound, rfl⟩

/-!
## Complete modules
-/

/-- What the tokens of a loaded module stand for. -/
structure ScopeOf (metadata : ImageMetadata) (m : CodeModule) (scope : TypeScope) : Prop where
  definitions : scope.definitions = m.types.map fun type => (m.typeName? type.token).getD {}
  references : metadata.typeReferences m.references = .ok scope.references
  constructed : (metadata.rows .typeSpec).mapM (fun row => metadata.blob .typeSpec row 0) =
    .ok scope.constructed.toList

/-- Everything that a module defines is as the passes have read it. -/
structure ModuleRead (metadata : ImageMetadata) (scope : TypeScope)
    (generics : List GenericParameterRow) (m : CodeModule) : Prop where
  tokens : metadata.ScopeOf m scope
  types : ∀ index type, m.types[index]? = some type →
    type.genericParameters = genericNamesOf generics (TableId.typeDef.token (index + 1)) ∧
      metadata.SupertypesRead scope (index + 1) type
  fields : ∃ owners,
    ownersFromLists m.types TypeDefinition.fields (metadata.tables.rows .field) = .ok owners ∧
      m.fields.size = metadata.tables.rows .field ∧
      ∀ index field, m.fields[index]? = some field →
        metadata.FieldRead scope (typeGenerics m) owners (index + 1) field
  methods : ∃ owners,
    ownersFromLists m.types TypeDefinition.methods (metadata.tables.rows .methodDef) =
        .ok owners ∧
      m.methods.size = metadata.tables.rows .methodDef ∧
      ∀ index method, m.methods[index]? = some method →
        metadata.MethodRead scope generics (typeGenerics m) owners (index + 1) method
  properties : ∃ owners,
    metadata.ownersFromMap .propertyMap .property .propertyPtr = .ok owners ∧
      ∀ index property, m.properties[index]? = some property →
        metadata.PropertyRead scope (typeGenerics m) owners (index + 1) property
  events : ∃ owners,
    metadata.ownersFromMap .eventMap .event .eventPtr = .ok owners ∧
      ∀ index event, m.events[index]? = some event →
        metadata.EventRead scope owners (index + 1) event

/-!
What stands in the rows of types tells the names of the types and of their generic parameters.
-/

theorem type?_skeletons (m k : CodeModule) (token : Token) :
    { k with types := m.skeletons }.type? token = (m.type? token).map TypeDefinition.skeleton := by
  unfold CodeModule.type? byRow CodeModule.skeletons
  split
  · exact Array.getElem?_map
  · rfl

theorem enclosingChain_skeletons (m k : CodeModule) (fuel : Nat) (token : Option Token) :
    { k with types := m.skeletons }.enclosingChain fuel token =
      (m.enclosingChain fuel token).map TypeDefinition.skeleton := by
  induction fuel generalizing token with
  | zero => rfl
  | succ fuel ih =>
      unfold CodeModule.enclosingChain
      cases token with
      | none => rfl
      | some token =>
          rw [Option.bind_some, Option.bind_some, type?_skeletons]
          cases m.type? token with
          | none => rfl
          | some type => exact congrArg (type.skeleton :: ·) (ih type.declaringType)

theorem typeName?_skeletons (m k : CodeModule) (token : Token) :
    { k with types := m.skeletons }.typeName? token = m.typeName? token := by
  have hfull (outer : Token) :
      { k with types := m.skeletons }.fullName outer = m.fullName outer := by
    unfold CodeModule.fullName CodeModule.qualifiedName CodeModule.enclosingTypes
    rw [enclosingChain_skeletons, CodeModule.skeletons, Array.size_map]
    simp only [← List.map_reverse, List.map_map, List.getLast?_map, Option.map_map]
    rfl
  unfold CodeModule.typeName?
  rw [type?_skeletons, Option.map_map]
  refine congrArg (Option.map · (m.type? token)) (funext fun type => ?_)
  simp only [Function.comp_apply, TypeDefinition.skeleton, hfull]

theorem typeGenerics_skeletons (m k : CodeModule) (token : Token) :
    typeGenerics { k with types := m.skeletons } token = typeGenerics m token := by
  unfold typeGenerics
  rw [type?_skeletons, Option.map_map]
  rfl

theorem typeGenerics_of_skeletons (h : after.skeletons = m.skeletons) :
    typeGenerics after = typeGenerics m := by
  funext token
  rw [← typeGenerics_skeletons after m, h, typeGenerics_skeletons]

theorem ScopeOf.of_skeletons (hscope : metadata.ScopeOf m scope)
    (h : after.skeletons = m.skeletons) (hreferences : after.references = m.references) :
    metadata.ScopeOf after scope := by
  have hnames (k : CodeModule) :
      (k.types.map fun type => (k.typeName? type.token).getD {}) =
        k.skeletons.map fun type =>
          ({ m with types := k.skeletons }.typeName? type.token).getD {} := by
    rw [CodeModule.skeletons, Array.map_map]
    refine Array.map_congr_left fun type _ => ?_
    rw [Function.comp_apply, ← CodeModule.skeletons, typeName?_skeletons]
    rfl
  refine ⟨?_, by rw [hreferences, hscope.references], hscope.constructed⟩
  rw [hscope.definitions, hnames m, hnames after, h]

/-- What holds of the item of each row still does when items change in ways that keep it. -/
theorem forall_rows_modify {α : Type} {R : Nat → α → Prop} {items : Array α}
    (h : ∀ index item, items[index]? = some item → R index item) {change : α → α}
    (hchange : ∀ index item, R index item → R index (change item)) (place : Nat) :
    ∀ index item, (items.modify place change)[index]? = some item → R index item := by
  intro index item hitem
  rw [Array.getElem?_modify] at hitem
  split at hitem
  · rcases Option.map_eq_some_iff.mp hitem with ⟨before, hbefore, hafter⟩
    rw [← hafter]
    exact hchange index before (h index before hbefore)
  · exact h index item hitem

section Complete

variable {generics : List GenericParameterRow}

theorem moduleRead_linkAccessor (h : metadata.ModuleRead scope generics m) (method : Token)
    (role : AccessorRole) (owner : Token) :
    metadata.ModuleRead scope generics (linkAccessor m method role owner) := by
  have hreferences : (linkAccessor m method role owner).references = m.references := by
    unfold linkAccessor
    dsimp only
    split_ifs <;> rfl
  have hscope := h.tokens.of_skeletons
    (congrArg (Array.map TypeDefinition.skeleton) (linkAccessor_types m method role owner))
    hreferences
  rcases h with ⟨-, htypes, hfields, ⟨owners, howners, hsize, hmethods⟩,
    ⟨holders, hheld, hproperties⟩, ⟨sources, hsources, hevents⟩⟩
  have hlinked : ∀ index d,
      (m.methods.modify (method.row - 1) fun d => { d with role := some role })[index]? = some d →
        metadata.MethodRead scope generics (typeGenerics m) owners (index + 1) d := by
    refine forall_rows_modify hmethods ?_ _
    intro index d hread
    exact ⟨hread.token, hread.owner, hread.genericParameters, hread.types⟩
  revert hscope
  unfold linkAccessor
  dsimp only
  split_ifs <;> intro hscope
  · exact ⟨hscope, htypes, hfields, ⟨owners, howners, hsize, hmethods⟩,
      ⟨holders, hheld, hproperties⟩, ⟨sources, hsources, hevents⟩⟩
  · exact ⟨hscope, htypes, hfields, ⟨owners, howners, Array.size_modify.trans hsize, hlinked⟩,
      ⟨holders, hheld, hproperties⟩, ⟨sources, hsources, hevents⟩⟩
  · refine ⟨hscope, htypes, hfields,
      ⟨owners, howners, Array.size_modify.trans hsize, hlinked⟩,
      ⟨holders, hheld, forall_rows_modify hproperties ?_ _⟩, ⟨sources, hsources, hevents⟩⟩
    intro index property hread
    cases role <;> exact ⟨hread.token, hread.owner, hread.types⟩
  · refine ⟨hscope, htypes, hfields,
      ⟨owners, howners, Array.size_modify.trans hsize, hlinked⟩,
      ⟨holders, hheld, hproperties⟩, ⟨sources, hsources, forall_rows_modify hevents ?_ _⟩⟩
    intro index event hread
    cases role <;> exact ⟨hread.token, hread.owner, hread.type⟩

theorem moduleRead_addAccessors (h : metadata.addAccessors m = .ok after)
    (hread : metadata.ModuleRead scope generics m) :
    metadata.ModuleRead scope generics after := by
  refine Outcome.foldlM_keeps (P := metadata.ModuleRead scope generics) h hread ?_
  intro before row next hstep hbefore
  rcases Outcome.bind_eq_ok.mp hstep with ⟨bits, _, hrole⟩
  split at hrole
  · rw [← Outcome.pure_eq_ok.mp hrole]
    exact hbefore
  · rcases Outcome.bind_eq_ok.mp hrole with ⟨method, _, howner⟩
    rcases Outcome.bind_eq_ok.mp howner with ⟨owner, _, hpure⟩
    rw [← Outcome.pure_eq_ok.mp hpure]
    exact moduleRead_linkAccessor hbefore _ _ _

theorem moduleRead_addConstants (h : metadata.addConstants m = .ok after)
    (hread : metadata.ModuleRead scope generics m) :
    metadata.ModuleRead scope generics after := by
  refine Outcome.foldlM_keeps (P := metadata.ModuleRead scope generics) h hread ?_
  intro before row next hstep hbefore
  rcases Outcome.bind_eq_ok.mp hstep with ⟨parent, _, hparent⟩
  split at hparent
  · rw [← Outcome.pure_eq_ok.mp hparent]
    exact hbefore
  · rcases Outcome.bind_eq_ok.mp hparent with ⟨elementType, _, hblob⟩
    rcases Outcome.bind_eq_ok.mp hblob with ⟨blob, _, hvalue⟩
    rcases Outcome.bind_eq_ok.mp hvalue with ⟨value?, _, hfield⟩
    split at hfield
    · rw [← Outcome.pure_eq_ok.mp hfield]
      exact hbefore
    · split at hfield
      · rw [← Outcome.pure_eq_ok.mp hfield]
        exact hbefore
      · rw [← Outcome.pure_eq_ok.mp hfield]
        rcases hbefore.fields with ⟨owners, howners, hsize, hfields⟩
        refine ⟨hbefore.tokens.of_skeletons rfl rfl, hbefore.types,
          ⟨owners, howners, Array.size_modify.trans hsize, forall_rows_modify hfields ?_ _⟩,
          hbefore.methods, hbefore.properties, hbefore.events⟩
        intro index field hfield
        exact ⟨hfield.token, hfield.owner, hfield.type⟩

/-- Types that have been read alike list members alike. -/
theorem ownersFromLists_skeleton {members : TypeDefinition → List Token}
    (hmembers : ∀ type, members type.skeleton = members type) (types : Array TypeDefinition)
    (count : Nat) :
    ownersFromLists (types.map TypeDefinition.skeleton) members count =
      ownersFromLists types members count := by
  unfold ownersFromLists
  rw [Array.toList_map, List.foldlM_map]
  simp only [hmembers]
  rfl

end Complete

/-- Types are read with the names of the generic parameters that their tokens own. -/
theorem genericParameters_typeSkeletons {types : Array TypeDefinition}
    (h : metadata.typeSkeletons = .ok types) :
    ∃ generics, (metadata.rows .genericParam).mapM metadata.genericParameter = .ok generics ∧
      ∀ index type, types[index]? = some type →
        type.genericParameters = genericNamesOf generics (TableId.typeDef.token (index + 1)) := by
  rcases typeSkeletons_ok h with ⟨_, generics, unlinked, _, hgenerics, hunlinked, rfl⟩
  refine ⟨generics, hgenerics, fun index type htype => ?_⟩
  rw [linkNesting, Array.getElem?_mapIdx, List.getElem?_toArray] at htype
  rcases Option.map_eq_some_iff.mp htype with ⟨before, hbefore, hafter⟩
  rcases List.getElem?_eq_some_iff.mp hbefore with ⟨hindex, rfl⟩
  rcases typeSkeleton_eq ((mapM_rows hunlinked).2 index hindex) with
    ⟨_, _, _, _, _, -, -, hskeleton⟩
  rw [← hafter, hskeleton]

/-- Supertypes leave the names of generic parameters as they are. -/
theorem genericParameters_addHierarchy (h : metadata.addHierarchy scope m = .ok after)
    (hsize : m.types.size = metadata.tables.rows .typeDef) {index : Nat} {type : TypeDefinition}
    (htype : after.types[index]? = some type) :
    ∃ before, m.types[index]? = some before ∧
      type.genericParameters = before.genericParameters := by
  have hsame := congrArg (fun types => types[index]?) (addHierarchy_skeletons h hsize)
  simp only [CodeModule.skeletons, Array.getElem?_map, htype] at hsame
  rcases Option.map_eq_some_iff.mp hsame.symm with ⟨before, hbefore, hskeleton⟩
  exact ⟨before, hbefore, (congrArg TypeDefinition.genericParameters hskeleton).symm⟩

theorem scopeOf_addHierarchy (h : metadata.addHierarchy scope m = .ok after)
    (hsize : m.types.size = metadata.tables.rows .typeDef) (hscope : metadata.ScopeOf m scope) :
    metadata.ScopeOf after scope := by
  refine hscope.of_skeletons (addHierarchy_skeletons h hsize) ?_
  rcases Outcome.bind_eq_ok.mp h with ⟨_, _, htypes⟩
  rcases Outcome.bind_eq_ok.mp htypes with ⟨types, _, hpure⟩
  rw [← Outcome.pure_eq_ok.mp hpure]

/-- Everything in a module that has been loaded is as the passes have read it. -/
theorem exists_moduleRead {name : String} (h : metadata.toModule name = .ok m) :
    ∃ scope generics, (metadata.rows .genericParam).mapM metadata.genericParameter =
      .ok generics ∧ metadata.ModuleRead scope generics m := by
  rcases toModule_passes h with ⟨scope, start, withHierarchy, withFields, withMethods,
    withProperties, withEvents, withAccessors, hskeletons, hwithHierarchy, hwithFields,
    hwithMethods, hwithProperties, hwithEvents, hwithAccessors, hconstants, _, _, hconstructed,
    hnamed, hdefined⟩
  rcases genericParameters_typeSkeletons hskeletons with ⟨generics, hgenerics, hnumbered⟩
  have hsize := size_typeSkeletons hskeletons
  have hstart : metadata.ScopeOf start scope := ⟨hdefined, hnamed, hconstructed⟩
  have htokens := scopeOf_addHierarchy hwithHierarchy hsize hstart
  have hafterFields := addFields_skeletons hwithFields
  have hafterMethods := (addMethods_skeletons hwithMethods).trans hafterFields
  have hafterProperties := (addProperties_skeletons hwithProperties).trans hafterMethods
  have hafterEvents := (addEvents_skeletons hwithEvents).trans hafterProperties
  have howners {members : TypeDefinition → List Token}
      (hmembers : ∀ type, members type.skeleton = members type) {k : CodeModule}
      (hk : k.skeletons = withHierarchy.skeletons) (count : Nat) :
      ownersFromLists withEvents.types members count = ownersFromLists k.types members count := by
    rw [← ownersFromLists_skeleton hmembers, ← ownersFromLists_skeleton hmembers k.types]
    exact congrArg (ownersFromLists · members count) (hafterEvents.trans hk.symm)
  have hnames {k : CodeModule} (hk : k.skeletons = withHierarchy.skeletons) :
      typeGenerics withEvents = typeGenerics k :=
    typeGenerics_of_skeletons (hafterEvents.trans hk.symm)
  refine ⟨scope, generics, hgenerics,
    moduleRead_addConstants hconstants (moduleRead_addAccessors hwithAccessors ?_)⟩
  rcases addFields_read hwithFields with ⟨fieldOwners, fields, hfieldOwners, rfl, hfieldsSize,
    hfields⟩
  rcases addMethods_read hwithMethods with ⟨methodOwners, read, methods, hmethodOwners, hread, rfl,
    hmethodsSize, hmethods⟩
  rcases addProperties_read hwithProperties with ⟨propertyOwners, properties, hpropertyOwners,
    rfl, -, hproperties⟩
  rcases addEvents_read hwithEvents with ⟨eventOwners, events, heventOwners, rfl, -, hevents⟩
  cases hgenerics.symm.trans hread
  refine ⟨htokens.of_skeletons hafterEvents rfl, ?_, ⟨fieldOwners, ?_, hfieldsSize, ?_⟩,
    ⟨methodOwners, ?_, hmethodsSize, ?_⟩, ⟨propertyOwners, hpropertyOwners, ?_⟩,
    ⟨eventOwners, heventOwners, ?_⟩⟩
  · intro index type htype
    simp only [Array.getElem?_mapIdx, Option.map_map] at htype
    rcases Option.map_eq_some_iff.mp htype with ⟨before, hbefore, rfl⟩
    rcases addHierarchy_read hwithHierarchy index before hbefore with ⟨hbase, hinterfaces⟩
    rcases genericParameters_addHierarchy hwithHierarchy hsize hbefore with
      ⟨skeleton, hskeleton, hsame⟩
    exact ⟨hsame.trans (hnumbered index skeleton hskeleton), hbase, hinterfaces⟩
  · exact (howners (fun _ => rfl) rfl _).trans hfieldOwners
  · rw [hnames rfl]
    exact hfields
  · exact (howners (fun _ => rfl) hafterFields _).trans hmethodOwners
  · rw [hnames hafterFields]
    exact hmethods
  · rw [hnames hafterMethods]
    intro index property hproperty
    exact hproperties index property (by rwa [List.getElem?_toArray] at hproperty)
  · intro index event hevent
    exact hevents index event (by rwa [List.getElem?_toArray] at hevent)

end ImageMetadata
end AssemblyBrowser
