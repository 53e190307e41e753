import AssemblyBrowser.Proofs.Lookup.Loading
import AssemblyBrowser.Proofs.Lookup.Numbering

/-!
# Lookups are exact

Where rows are numbered and fit tokens, a lookup by token finds the definition
that carries the token, what types list is found, and a namespace lists its
top-level types in row order. Loading and building both number rows, so this
holds of every module that they make.

A module lists the assemblies that it refers to and its resources beside its
definitions. Loading makes them before everything else and building adds them
one by one; no later pass and no other step touches them.
-/

namespace AssemblyBrowser

namespace CodeModule

variable {m : CodeModule}

/-- All definitions of a module. -/
def entities (m : CodeModule) : List Entity :=
  m.types.toList.map .type ++ m.methods.toList.map .method ++ m.fields.toList.map .field
    ++ m.properties.toList.map .property ++ m.events.toList.map .event

/-- Tokens have room for the rows of all definitions. -/
def RowsFit (m : CodeModule) : Prop :=
  ∀ table, m.definitionCount table < 0x1000000

/-- A lookup among all definitions is one among those of a kind. -/
theorem entity?_eq_some {token : Token} {entity : Entity} :
    m.entity? token = some entity ↔
      match entity with
      | .type type => m.type? token = some type
      | .method method => m.method? token = some method
      | .field field => m.field? token = some field
      | .property property => m.property? token = some property
      | .event event => m.event? token = some event := by
  have hnamed {α : Type} {rows : Array α} {table : TableId} {item : α}
      (h : byRow rows table token = some item) : token.table = table.number := by
    unfold byRow at h
    split at h
    case isTrue hnamed => exact hnamed.1
    case isFalse => cases h
  constructor
  · intro hfound
    unfold entity? at hfound
    split_ifs at hfound <;> rcases Option.map_eq_some_iff.mp hfound with ⟨_, hitem, rfl⟩ <;>
      exact hitem
  · intro hfound
    unfold entity?
    cases entity with
    | type type =>
        rw [hnamed hfound, if_pos rfl, hfound]
        rfl
    | method method =>
        rw [hnamed hfound, if_neg (by decide), if_pos rfl, hfound]
        rfl
    | field field =>
        rw [hnamed hfound, if_neg (by decide), if_neg (by decide), if_pos rfl, hfound]
        rfl
    | property property =>
        rw [hnamed hfound, if_neg (by decide), if_neg (by decide), if_neg (by decide), if_pos rfl,
          hfound]
        rfl
    | event event =>
        rw [hnamed hfound, if_neg (by decide), if_neg (by decide), if_neg (by decide),
          if_neg (by decide), if_pos rfl, hfound]
        rfl

theorem entity?_eq_some_iff (h : m.Indexed) (hfit : m.RowsFit) {token : Token} {entity : Entity} :
    m.entity? token = some entity ↔ entity ∈ m.entities ∧ entity.token = token := by
  rw [entity?_eq_some]
  cases entity with
  | type type => simp [entities, Entity.token, type?, h.types.byRow_eq_some_iff (hfit .typeDef)]
  | method method =>
      simp [entities, Entity.token, method?, h.methods.byRow_eq_some_iff (hfit .methodDef)]
  | field field => simp [entities, Entity.token, field?, h.fields.byRow_eq_some_iff (hfit .field)]
  | property property =>
      simp [entities, Entity.token, property?, h.properties.byRow_eq_some_iff (hfit .property)]
  | event event => simp [entities, Entity.token, event?, h.events.byRow_eq_some_iff (hfit .event)]

theorem eq_of_token (h : m.Indexed) (hfit : m.RowsFit) {entity other : Entity}
    (hentity : entity ∈ m.entities) (hother : other ∈ m.entities)
    (htoken : entity.token = other.token) : entity = other := by
  have hfound := (entity?_eq_some_iff h hfit).mpr ⟨hentity, htoken⟩
  rw [(entity?_eq_some_iff h hfit).mpr ⟨hother, rfl⟩] at hfound
  exact (Option.some.inj hfound).symm

/-- Lookups by token and by namespace are exact. -/
structure LooksUpExactly (m : CodeModule) : Prop where
  found : ∀ entity ∈ m.entities, m.entity? entity.token = some entity
  absent : ∀ token, (∀ entity ∈ m.entities, entity.token ≠ token) → m.entity? token = none
  nestedTypes : ∀ type ∈ m.types, ∀ token ∈ type.nestedTypes,
    ∃ inner, m.entity? token = some (.type inner)
  methods : ∀ type ∈ m.types, ∀ token ∈ type.methods,
    ∃ method, m.entity? token = some (.method method)
  fields : ∀ type ∈ m.types, ∀ token ∈ type.fields, ∃ field, m.entity? token = some (.field field)
  properties : ∀ type ∈ m.types, ∀ token ∈ type.properties,
    ∃ property, m.entity? token = some (.property property)
  events : ∀ type ∈ m.types, ∀ token ∈ type.events, ∃ event, m.entity? token = some (.event event)
  /-- The types of a namespace come in row order, so that none comes twice. -/
  rowOrder : ∀ namespaceName,
    (m.typesInNamespace namespaceName).Pairwise fun a b => a.row < b.row
  mem_typesInNamespace : ∀ namespaceName token,
    token ∈ m.typesInNamespace namespaceName ↔
      ∃ type, m.entity? token = some (.type type) ∧ type.declaringType = none ∧
        type.name ≠ "<Module>" ∧ type.namespaceName = namespaceName
  namespaces_nodup : m.namespaces.Nodup
  mem_namespaces : ∀ namespaceName,
    namespaceName ∈ m.namespaces ↔ m.typesInNamespace namespaceName ≠ []

theorem mem_topLevelTypes {type : TypeDefinition} :
    type ∈ m.topLevelTypes ↔
      type ∈ m.types ∧ type.declaringType = none ∧ type.name ≠ "<Module>" := by
  simp [topLevelTypes, modulePseudoType]

theorem mem_typesInNamespace_iff {namespaceName : String} {token : Token} :
    token ∈ m.typesInNamespace namespaceName ↔
      ∃ type ∈ m.topLevelTypes, type.namespaceName = namespaceName ∧ type.token = token := by
  simp [typesInNamespace, and_assoc]

theorem Indexed.typesInNamespace_increase (h : m.Indexed) (hfit : m.RowsFit)
    (namespaceName : String) :
    (m.typesInNamespace namespaceName).Pairwise fun a b => a.row < b.row := by
  rw [typesInNamespace, List.pairwise_map]
  exact ((h.types.rows_increase (hfit .typeDef)).filter _).filter _

theorem mem_namespaces_iff {namespaceName : String} :
    namespaceName ∈ m.namespaces ↔ m.typesInNamespace namespaceName ≠ [] := by
  rw [namespaces, List.mem_mergeSort, List.mem_eraseDups, List.mem_map]
  constructor
  · rintro ⟨type, hmem, hnamespace⟩ hempty
    have htoken := mem_typesInNamespace_iff.mpr ⟨type, hmem, hnamespace, rfl⟩
    rw [hempty] at htoken
    cases htoken
  · intro hne
    rcases List.exists_mem_of_ne_nil _ hne with ⟨token, htoken⟩
    rcases mem_typesInNamespace_iff.mp htoken with ⟨type, hmem, hnamespace, -⟩
    exact ⟨type, hmem, hnamespace⟩

theorem nodup_eraseDups (names : List String) : names.eraseDups.Nodup := by
  match names with
  | [] => exact List.nodup_nil
  | first :: rest =>
      rw [List.eraseDups_cons]
      refine List.nodup_cons.mpr ⟨?_, nodup_eraseDups _⟩
      simp [List.mem_eraseDups]
termination_by names.length
decreasing_by exact Nat.lt_succ_of_le (List.length_filter_le _ _)

theorem nodup_namespaces (m : CodeModule) : m.namespaces.Nodup :=
  (List.mergeSort_perm _ _).nodup_iff.mpr (nodup_eraseDups _)

theorem Indexed.looksUpExactly (h : m.Indexed) (hfit : m.RowsFit) : m.LooksUpExactly where
  found entity hmem := (entity?_eq_some_iff h hfit).mpr ⟨hmem, rfl⟩
  absent token hnone := by
    cases hfound : m.entity? token with
    | none => rfl
    | some entity =>
        rcases (entity?_eq_some_iff h hfit).mp hfound with ⟨hmem, htoken⟩
        exact absurd htoken (hnone entity hmem)
  nestedTypes type htype token hmem :=
    (h.types.exists_byRow (hfit .typeDef) ((h.lists type htype).nestedTypes token hmem)).imp
      fun _ => entity?_eq_some.mpr
  methods type htype token hmem :=
    (h.methods.exists_byRow (hfit .methodDef) ((h.lists type htype).methods token hmem)).imp
      fun _ => entity?_eq_some.mpr
  fields type htype token hmem :=
    (h.fields.exists_byRow (hfit .field) ((h.lists type htype).fields token hmem)).imp
      fun _ => entity?_eq_some.mpr
  properties type htype token hmem :=
    (h.properties.exists_byRow (hfit .property) ((h.lists type htype).properties token hmem)).imp
      fun _ => entity?_eq_some.mpr
  events type htype token hmem :=
    (h.events.exists_byRow (hfit .event) ((h.lists type htype).events token hmem)).imp
      fun _ => entity?_eq_some.mpr
  rowOrder := h.typesInNamespace_increase hfit
  mem_typesInNamespace namespaceName token := by
    simp only [mem_typesInNamespace_iff, mem_topLevelTypes, entity?_eq_some, type?,
      h.types.byRow_eq_some_iff (hfit .typeDef)]
    tauto
  namespaces_nodup := m.nodup_namespaces
  mem_namespaces _ := mem_namespaces_iff

/-!
## Modules that are loaded or built
-/

/-- The module of an image that is accepted, or one that has been built step by step. -/
inductive Produced : CodeModule → Prop where
  | loaded {m : CodeModule} {image : Image} {name : String} (h : ofImage image name = .ok m) :
      Produced m
  | built (name : String) (steps : List BuildStep) : Produced (ofSteps name steps).1

theorem Produced.indexed (h : Produced m) : m.Indexed := by
  cases h with
  | loaded h => exact indexed_ofImage h
  | built name steps => exact indexed_ofSteps name steps

theorem produced_lookups_exact (h : Produced m) (hfit : m.RowsFit) : m.LooksUpExactly :=
  h.indexed.looksUpExactly hfit

/-- A type with another one and a field inside it. -/
def smallSteps : List BuildStep :=
  [.type "N" "A" .classType 0, .nestedType (TableId.typeDef.token 2) "B" .classType 0,
    .field (TableId.typeDef.token 2) "f" 0 .object]

theorem small_lookups_exact :
    (∃ m, ofImage (SmallImage.ofNesting 2 [(2, 1)]) "" = .ok m ∧ m.RowsFit ∧ m.LooksUpExactly) ∧
      (ofSteps "M" smallSteps).1.RowsFit ∧ (ofSteps "M" smallSteps).1.LooksUpExactly := by
  constructor
  · have hloads : (ofImage (SmallImage.ofNesting 2 [(2, 1)]) "").toOption.any (fun m =>
        decide (m.types.size < 0x1000000) && decide (m.methods.size < 0x1000000) &&
          decide (m.fields.size < 0x1000000) && decide (m.properties.size < 0x1000000) &&
            decide (m.events.size < 0x1000000)) = true := by
      decide +kernel
    cases hm : ofImage (SmallImage.ofNesting 2 [(2, 1)]) "" with
    | ok m =>
        rw [hm] at hloads
        simp only [Except.toOption, Option.any_some, Bool.and_eq_true, decide_eq_true_eq] at hloads
        rcases hloads with ⟨⟨⟨⟨htypes, hmethods⟩, hfields⟩, hproperties⟩, hevents⟩
        have hfit : m.RowsFit := by
          intro table
          cases table <;> first | assumption | exact Nat.zero_lt_succ _
        exact ⟨m, rfl, hfit, produced_lookups_exact (.loaded hm) hfit⟩
    | error error =>
        rw [hm] at hloads
        cases hloads
  · have hfit : (ofSteps "M" smallSteps).1.RowsFit := by
      intro table
      cases table <;> decide
    exact ⟨hfit, produced_lookups_exact (.built "M" smallSteps) hfit⟩

end CodeModule

/-!
## References and resources
-/

namespace CodeModule

/-- Every reference and every resource carries the token of its row. -/
structure Catalogued (m : CodeModule) : Prop where
  references : Numbered .assemblyRef AssemblyReference.token m.references
  resources : Numbered .manifestResource ManifestResource.token m.resources

variable {m : CodeModule}

/-!
### Building
-/

namespace Catalogued

theorem ofInitial (name : String) : (initial name).Catalogued where
  references := Numbered.empty _ _
  resources := Numbered.empty _ _

theorem modifyType (h : m.Catalogued) (token : Token)
    (change : TypeDefinition → TypeDefinition) : (m.modifyType token change).Catalogued := by
  unfold CodeModule.modifyType
  split
  · exact h
  · exact ⟨h.references, h.resources⟩

theorem markAccessor (h : m.Catalogued) (method : Option Token) (role : AccessorRole) :
    (m.markAccessor method role).Catalogued := by
  cases method with
  | none => exact h
  | some token =>
      show (m.modifyMethod token _).Catalogued
      unfold CodeModule.modifyMethod
      split
      · exact h
      · exact ⟨h.references, h.resources⟩

theorem pushField (h : m.Catalogued) (type : Token) (name : String) (flags : Nat)
    (fieldType : TypeExpr) (constant : Option Constant) :
    (m.pushField type name flags fieldType constant).1.Catalogued := by
  refine modifyType ?_ type _
  exact ⟨h.references, h.resources⟩

theorem build (h : m.Catalogued) (step : BuildStep) : (m.build step).1.Catalogued := by
  cases step with
  | assembly name version => exact ⟨h.1, h.2⟩
  | runtime version => exact ⟨h.1, h.2⟩
  | type namespaceName name kind flags => exact ⟨h.1, h.2⟩
  | nestedType outer name kind flags =>
      refine modifyType ?_ outer _
      exact ⟨h.1, h.2⟩
  | base type base => exact h.modifyType type _
  | interface type interface => exact h.modifyType type _
  | genericParameters type names => exact h.modifyType type _
  | method type name flags returnType parameters =>
      refine modifyType ?_ type _
      exact ⟨h.1, h.2⟩
  | field type name flags fieldType => exact h.pushField type name flags fieldType none
  | constant type name fieldType value =>
      exact h.pushField type name publicConstantFlags fieldType (some value)
  | property type name propertyType getter setter =>
      refine ((markAccessor ?_ getter .getter).markAccessor setter .setter).modifyType type _
      exact ⟨h.1, h.2⟩
  | event type name eventType adder remover =>
      refine ((markAccessor ?_ adder .adder).markAccessor remover .remover).modifyType type _
      exact ⟨h.1, h.2⟩
  | reference identity => exact ⟨h.references.push rfl, h.resources⟩
  | resource name length isPublic => exact ⟨h.references, h.resources.push rfl⟩
  | entryPoint method => exact ⟨h.1, h.2⟩

theorem buildAll (h : m.Catalogued) (steps : List BuildStep) : (m.buildAll steps).1.Catalogued := by
  induction steps generalizing m with
  | nil => exact h
  | cons step steps ih => exact ih (h.build step)

end Catalogued

end CodeModule

/-!
### Loading
-/

namespace ImageMetadata

variable {metadata : ImageMetadata} {m after : CodeModule}

theorem reference_token {row : Nat} {reference : AssemblyReference}
    (h : metadata.reference row = .ok reference) :
    reference.token = TableId.assemblyRef.token row := by
  rcases Outcome.bind_eq_ok.mp h with ⟨flags, _, hkey⟩
  rcases Outcome.bind_eq_ok.mp hkey with ⟨key, _, hname⟩
  rcases Outcome.bind_eq_ok.mp hname with ⟨name, _, hversion⟩
  rcases Outcome.bind_eq_ok.mp hversion with ⟨version, _, hculture⟩
  rcases Outcome.bind_eq_ok.mp hculture with ⟨culture, _, hdone⟩
  rw [← Outcome.pure_eq_ok.mp hdone]

theorem resource_token {references : Array AssemblyReference} {row : Nat}
    {resource : ManifestResource} (h : metadata.resource references row = .ok resource) :
    resource.token = TableId.manifestResource.token row := by
  rcases Outcome.bind_eq_ok.mp h with ⟨offset, _, hflags⟩
  rcases Outcome.bind_eq_ok.mp hflags with ⟨flags, _, himplementation⟩
  rcases Outcome.bind_eq_ok.mp himplementation with ⟨implementation, _, hlocation⟩
  rcases Outcome.bind_eq_ok.mp hlocation with ⟨⟨location, length⟩, _, hname⟩
  rcases Outcome.bind_eq_ok.mp hname with ⟨name, _, hdone⟩
  rw [← Outcome.pure_eq_ok.mp hdone]

theorem catalogued_linkAccessor (h : m.Catalogued) (method : Token) (role : AccessorRole)
    (owner : Token) : (linkAccessor m method role owner).Catalogued := by
  unfold linkAccessor
  dsimp only
  split_ifs <;> exact ⟨h.references, h.resources⟩

theorem catalogued_addAccessors (h : metadata.addAccessors m = .ok after)
    (hcatalogued : m.Catalogued) : after.Catalogued := by
  refine Outcome.foldlM_keeps (P := CodeModule.Catalogued) h hcatalogued ?_
  intro before row next hstep hbefore
  rcases Outcome.bind_eq_ok.mp hstep with ⟨bits, _, hrole⟩
  split at hrole
  · rw [← Outcome.pure_eq_ok.mp hrole]
    exact hbefore
  · rcases Outcome.bind_eq_ok.mp hrole with ⟨method, _, howner⟩
    rcases Outcome.bind_eq_ok.mp howner with ⟨owner, _, hpure⟩
    rw [← Outcome.pure_eq_ok.mp hpure]
    exact catalogued_linkAccessor hbefore _ _ _

theorem catalogued_addConstants (h : metadata.addConstants m = .ok after)
    (hcatalogued : m.Catalogued) : after.Catalogued := by
  refine Outcome.foldlM_keeps (P := CodeModule.Catalogued) h hcatalogued ?_
  intro before row next hstep hbefore
  rcases Outcome.bind_eq_ok.mp hstep with ⟨parent, _, hparent⟩
  split at hparent
  · rw [← Outcome.pure_eq_ok.mp hparent]
    exact hbefore
  · rcases Outcome.bind_eq_ok.mp hparent with ⟨elementType, _, hblob⟩
    rcases Outcome.bind_eq_ok.mp hblob with ⟨blob, _, hvalue⟩
    rcases Outcome.bind_eq_ok.mp hvalue with ⟨value?, _, hfield⟩
    split at hfield
    · rw [← Outcome.pure_eq_ok.mp hfield]
      exact hbefore
    · split at hfield <;> rw [← Outcome.pure_eq_ok.mp hfield]
      · exact hbefore
      · exact ⟨hbefore.references, hbefore.resources⟩

theorem catalogued_toModule {name : String} (h : metadata.toModule name = .ok m) :
    m.Catalogued := by
  rcases toModule_passes h with ⟨scope, start, withHierarchy, withFields, withMethods,
    withProperties, withEvents, withAccessors, hskeletons, hwithHierarchy, hwithFields,
    hwithMethods, hwithProperties, hwithEvents, hwithAccessors, hconstants, hreferences,
    hresources, _⟩
  have hstart : start.Catalogued :=
    ⟨(numbered_of_mapM AssemblyReference.token hreferences fun _ _ => reference_token).1,
      (numbered_of_mapM ManifestResource.token hresources fun _ _ => resource_token).1⟩
  -- The passes over types and members replace other tables than these two.
  rcases addHierarchy_eq hwithHierarchy (typesListed_typeSkeletons hskeletons) with
    ⟨types, rfl, htypes⟩
  rcases addFields_eq hwithFields with ⟨fields, rfl, _⟩
  rcases addMethods_eq hwithMethods with ⟨methods, rfl, _⟩
  rcases addProperties_eq hwithProperties htypes with ⟨properties, listed, rfl, _, _, hlisted⟩
  rcases addEvents_eq hwithEvents hlisted with ⟨events, all, rfl, _⟩
  refine catalogued_addConstants hconstants (catalogued_addAccessors hwithAccessors ?_)
  exact ⟨hstart.references, hstart.resources⟩

end ImageMetadata

namespace CodeModule

variable {m : CodeModule}

/-- However a module is made, its references and its resources are numbered. -/
theorem Produced.catalogued (h : Produced m) : m.Catalogued := by
  cases h with
  | loaded h =>
      rcases Outcome.bind_eq_ok.mp h with ⟨metadata, _, hmodule⟩
      exact ImageMetadata.catalogued_toModule hmodule
  | built name steps => exact (Catalogued.ofInitial name).buildAll steps

end CodeModule

end AssemblyBrowser
