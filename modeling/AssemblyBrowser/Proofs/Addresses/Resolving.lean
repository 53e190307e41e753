import AssemblyBrowser.Browse.Text
import AssemblyBrowser.Listing.Basic
import AssemblyBrowser.Proofs.Addresses.BaseTypes
import AssemblyBrowser.Proofs.Browsing.Nesting
import AssemblyBrowser.Proofs.Lookup.Exactness
import AssemblyBrowser.Proofs.TypeNesting

/-!
# What a store holds can be looked up

In a module that can be looked into nesting does not go round in a circle and
every member is declared in a type that exists. All its definitions, references
and resources are found by their tokens, and every definition has a text in every
dialect.

The address of anything that a store holds leads back to it, each form of
address in its own way: by the path of an archive, by the path of an entry or a
folder, by a token of the module's tables, or by the token of the type that a
group is about.
-/

namespace AssemblyBrowser

/-!
## Modules that can be looked into
-/

namespace CodeModule

/-- What a module has to satisfy for everything in it to be found and written. -/
structure Navigable (m : CodeModule) : Prop where
  /-- The module is loaded from an image or built step by step. -/
  produced : Produced m
  /-- Tokens have room for the rows of all definitions. -/
  rowsFit : m.RowsFit
  referencesFit : m.references.size < 0x1000000
  /-- No type stands inside itself. -/
  acyclic : ∀ token, ¬ Relation.TransGen m.Nests token token
  /-- A member is declared in a type of the module. -/
  declared : ∀ member ∈ m.members, ∃ owner ∈ m.types, member.declaringType = some owner.token

theorem mem_entities_iff {m : CodeModule} {entity : Entity} :
    entity ∈ m.entities ↔ (∃ type ∈ m.types, entity = .type type) ∨ entity ∈ m.members := by
  cases entity <;> simp [entities, members]

/-- Nesting does not go round in a circle if a type lists types of later rows only. -/
theorem acyclic_of_rows_increase {m : CodeModule}
    (h : ∀ index : Fin m.types.size, ∀ inner ∈ m.types[index].nestedTypes,
      index.val + 1 < inner.row) (token : Token) : ¬ Relation.TransGen m.Nests token token := by
  have hstep {outer inner : Token} (hnests : m.Nests outer inner) : outer.row < inner.row := by
    rcases hnests with ⟨type, htype, hlisted⟩
    rcases type?_eq_some.mp htype with ⟨_, hrow, hat⟩
    rcases Array.getElem?_eq_some_iff.mp hat with ⟨hlt, rfl⟩
    have hlater := h ⟨outer.row - 1, hlt⟩ inner hlisted
    simp only at hlater
    omega
  have hrun {inner : Token} (hbelow : Relation.TransGen m.Nests token inner) :
      token.row < inner.row := by
    induction hbelow with
    | single hnests => exact hstep hnests
    | tail _ hnests ih => exact Nat.lt_trans ih (hstep hnests)
  intro hcircle
  exact Nat.lt_irrefl _ (hrun hcircle)

namespace Navigable

variable {m : CodeModule} {token : Token} {type : TypeDefinition}

/-!
### Lookups
-/

theorem entity?_eq_some_iff (h : m.Navigable) {entity : Entity} :
    m.entity? token = some entity ↔ entity ∈ m.entities ∧ entity.token = token :=
  CodeModule.entity?_eq_some_iff h.produced.indexed h.rowsFit

theorem type?_eq_some_iff (h : m.Navigable) :
    m.type? token = some type ↔ type ∈ m.types ∧ type.token = token :=
  h.produced.indexed.types.byRow_eq_some_iff (h.rowsFit .typeDef)

theorem type?_token (h : m.Navigable) (hmem : type ∈ m.types) :
    m.type? type.token = some type :=
  h.type?_eq_some_iff.mpr ⟨hmem, rfl⟩

theorem reference?_token (h : m.Navigable) {reference : AssemblyReference}
    (hmem : reference ∈ m.references) : m.reference? reference.token = some reference :=
  (h.produced.catalogued.references.byRow_eq_some_iff h.referencesFit).mpr ⟨hmem, rfl⟩

/-- The token of a resource names a table, so it is never the one of an entry of a container. -/
theorem resource_token_ne_zero (h : m.Navigable) {resource : ManifestResource}
    (hmem : resource ∈ m.resources) : resource.token ≠ Token.zero := by
  rcases h.produced.catalogued.resources.namesRow hmem with ⟨row, _, _, htoken⟩
  intro hzero
  have htable := TableId.table_token .manifestResource row
  rw [← htoken, hzero] at htable
  cases htable

theorem exists_resource {resource : ManifestResource} (hmem : resource ∈ m.resources) :
    ∃ found, m.resources.toList.find? (·.token == resource.token) = some found :=
  Option.isSome_iff_exists.mp
    (List.find?_isSome.mpr ⟨resource, Array.mem_toList_iff.mpr hmem, beq_self_eq_true _⟩)

/-!
### Texts
-/

theorem not_meetsCircle (h : m.Navigable) (opens : TypeDefinition → Bool) :
    ¬ m.MeetsCircle opens token := by
  rintro ⟨inner, _, hcircle⟩
  refine h.acyclic inner (Relation.TransGen.mono ?_ inner inner hcircle)
  rintro outer nested ⟨type, htype, _, hlisted, _⟩
  exact ⟨type, htype, hlisted⟩

theorem exists_typeText (h : m.Navigable) (hmem : type ∈ m.types) (dialect : Dialect) :
    ∃ text, Listing.ofType dialect m type.token = .ok text := by
  have hfound : (m.type? type.token).isSome := by rw [h.type?_token hmem]; rfl
  exact (Listing.ofType_ok_iff hfound dialect).mpr (h.not_meetsCircle _)

theorem exists_memberText (h : m.Navigable) {member : Entity} (hmem : member ∈ m.members)
    (dialect : Dialect) : ∃ text, Listing.ofMember dialect m member.token = .ok text := by
  have hentity : m.entity? member.token = some member :=
    h.entity?_eq_some_iff.mpr ⟨mem_entities_iff.mpr (.inr hmem), rfl⟩
  rcases h.declared member hmem with ⟨owner, howner, hdeclared⟩
  have htype := h.type?_token howner
  unfold Listing.ofMember
  rw [Outcome.exists_map_eq_ok]
  cases dialect.isIl with
  | true =>
      simp only [if_true, Il.memberListing, hentity, hdeclared, htype]
      cases member with
      | type definition => simp [members] at hmem
      | method definition => exact ⟨_, rfl⟩
      | field definition => exact ⟨_, rfl⟩
      | property definition => exact ⟨_, rfl⟩
      | event definition => exact ⟨_, rfl⟩
  | false =>
      simp only [CSharp.memberListing, hentity, hdeclared, htype]
      cases member with
      | type definition => simp [members] at hmem
      | method definition => exact ⟨_, rfl⟩
      | field definition => exact ⟨_, rfl⟩
      | property definition => exact ⟨_, rfl⟩
      | event definition => exact ⟨_, rfl⟩

end Navigable

end CodeModule

/-!
## What a store holds
-/

/-- Whether a node groups answers about a type. -/
def NodeKind.isGroup : NodeKind → Bool
  | baseTypesGroup => true
  | derivedTypesGroup => true
  | analyzerGroup => true
  | _ => false

namespace Store

/-- The address leads to nodes, and if it has a text, to one in every dialect. -/
def Resolves (store : Store) (resolver : Resolver) (source : ArchiveSource)
    (address : NodeAddress) : Prop :=
  (∃ nodes, store.children resolver source address = (store, .ok nodes)) ∧
    (address.decompilable = true → ∀ dialect,
      ∃ text, store.text source .declarations dialect address = .ok text)

/-- The address of something that is in a store. -/
inductive Holds (store : Store) : NodeAddress → Prop
  | codeModule {place : PlacedModule} (hplace : place ∈ store.modules) :
      Holds store (.assembly place.archivePath place.containerPath)
  | container {archive : LoadedArchive} {container : Container}
      (harchive : archive ∈ store.archives) (hcontainer : archive.container? = some container) :
      Holds store (.package archive.path)
  | folder {archive : LoadedArchive} {container : Container} {folder : Folder}
      (harchive : archive ∈ store.archives) (hcontainer : archive.container? = some container)
      (hfolder : folder ∈ container.root.all) :
      Holds store (.packageFolder archive.path folder.path folder.name)
  | entry {archive : LoadedArchive} {container : Container} {entry : ContainerEntry}
      (harchive : archive ∈ store.archives) (hcontainer : archive.container? = some container)
      (hentry : entry ∈ container.entries) :
      Holds store (.resource archive.path (some entry.path) entry.name Token.zero)
  | resource {place : PlacedModule} {resource : ManifestResource}
      (hplace : place ∈ store.modules) (hresource : resource ∈ place.code.resources) :
      Holds store (place.resourceNode resource).address
  | references {place : PlacedModule} (hplace : place ∈ store.modules) :
      Holds store (.referencesRoot place.archivePath place.containerPath)
  | reference {place : PlacedModule} {reference : AssemblyReference}
      (hplace : place ∈ store.modules) (hreference : reference ∈ place.code.references) :
      Holds store (place.referenceNode reference).address
  | namespaceNode {place : PlacedModule} (hplace : place ∈ store.modules) (name : String) :
      Holds store (place.namespaceNode name).address
  | definition {place : PlacedModule} {entity : Entity} (hplace : place ∈ store.modules)
      (hentity : entity ∈ place.code.entities) : Holds store (place.entityNode entity).address
  | group {place : PlacedModule} {type : TypeDefinition} {kind : NodeKind}
      (hplace : place ∈ store.modules) (htype : type ∈ place.code.types)
      (hkind : kind.isGroup = true) :
      Holds store (.group place.archivePath place.containerPath kind type.token)
  | user {place : PlacedModule} {entity : Entity} (hplace : place ∈ store.modules)
      (hentity : entity ∈ place.code.entities) : Holds store (place.analyzerNode entity).address

variable {store : Store} {resolver : Resolver} {source : ArchiveSource} {place : PlacedModule}
  {archive : LoadedArchive} {container : Container} {address : NodeAddress}

/-- An address other than one of base types resolves if it is listed and has its text. -/
theorem resolves_of_listing (hkind : address.kind ≠ .baseTypesGroup)
    (hlisting : ∃ nodes, store.listing source address = .ok nodes)
    (htext : address.decompilable = true → ∀ dialect,
      ∃ text, store.text source .declarations dialect address = .ok text) :
    store.Resolves resolver source address := by
  rcases hlisting with ⟨nodes, hnodes⟩
  exact ⟨⟨nodes, children_of_listing hkind hnodes⟩, htext⟩

/-!
What is done for an address of a definition depends on the family of its kind only.
-/

theorem text_of_isType {renderer : Renderer} {dialect : Dialect}
    (h : address.kind.isType = true) :
    store.text source renderer dialect address =
      (store.placeOf source address >>= fun place =>
        renderer.type dialect place.code address.symbolToken) := by
  unfold text
  cases hkind : address.kind <;> rw [hkind] at h <;> first | rfl | cases h

theorem text_of_isMember {renderer : Renderer} {dialect : Dialect}
    (h : address.kind.isMember = true) :
    store.text source renderer dialect address =
      (store.placeOf source address >>= fun place =>
        renderer.member dialect place.code address.symbolToken) := by
  unfold text
  cases hkind : address.kind <;> rw [hkind] at h <;> first | rfl | cases h

theorem listing_of_isMember (h : address.kind.isMember = true) :
    store.listing source address =
      (store.placeOf source address >>= fun place =>
        entityOf place address >>= fun _ => .ok []) := by
  unfold listing
  cases hkind : address.kind <;> rw [hkind] at h <;> first | rfl | cases h

/-!
## Archives and what containers list
-/

theorem resolves_codeModule (hpaths : store.paths.Nodup) (hplace : place ∈ store.modules) :
    store.Resolves resolver source (.assembly place.archivePath place.containerPath) := by
  refine ⟨⟨_, children_assembly hpaths hplace⟩, fun _ dialect => ?_⟩
  simp only [text, NodeAddress.assembly]
  rw [placeOf_eq hpaths hplace rfl rfl]
  exact ⟨_, rfl⟩

theorem resolves_container (hpaths : store.paths.Nodup) (harchive : archive ∈ store.archives)
    (hcontainer : archive.container? = some container) :
    store.Resolves resolver source (.package archive.path) := by
  refine resolves_of_listing (by simp [NodeAddress.package]) ?_ fun _ dialect => ?_
  · simp only [listing, NodeAddress.package]
    rw [containerOf_eq hpaths harchive hcontainer rfl]
    exact ⟨_, rfl⟩
  · simp only [text, NodeAddress.package]
    rw [containerOf_eq hpaths harchive hcontainer rfl]
    exact ⟨_, rfl⟩

theorem resolves_folder (hpaths : store.paths.Nodup) (harchive : archive ∈ store.archives)
    (hcontainer : archive.container? = some container) {folder : Folder}
    (hfolder : folder ∈ container.root.all) :
    store.Resolves resolver source (.packageFolder archive.path folder.path folder.name) := by
  rcases Folder.exists_find? hfolder with ⟨found, hfound⟩
  have hfolderOf : container.folderOf (.packageFolder archive.path folder.path folder.name) =
      .ok found := by
    unfold Container.folderOf
    rw [if_neg (by simp [NodeAddress.packageFolder])]
    simp only [NodeAddress.packageFolder, Option.bind_some, hfound]
  refine resolves_of_listing (by simp [NodeAddress.packageFolder]) ?_ fun _ dialect => ?_
  · simp only [listing, NodeAddress.packageFolder] at hfolderOf ⊢
    rw [containerOf_eq hpaths harchive hcontainer rfl, Outcome.ok_bind, hfolderOf]
    exact ⟨_, rfl⟩
  · simp only [text, NodeAddress.packageFolder] at hfolderOf ⊢
    rw [containerOf_eq hpaths harchive hcontainer rfl, Outcome.ok_bind, hfolderOf]
    exact ⟨_, rfl⟩

/-- The address of an entry finds an entry of its path, be it this one or one in front of it. -/
theorem resolves_entry (hpaths : store.paths.Nodup) (harchive : archive ∈ store.archives)
    (hcontainer : archive.container? = some container) {entry : ContainerEntry}
    (hentry : entry ∈ container.entries) :
    store.Resolves resolver source (.resource archive.path (some entry.path) entry.name
      Token.zero) := by
  have hfound : (container.entry? entry.path).isSome :=
    List.find?_isSome.mpr ⟨entry, hentry, beq_self_eq_true _⟩
  rcases Option.isSome_iff_exists.mp hfound with ⟨found, hfound⟩
  refine resolves_of_listing (by simp [NodeAddress.resource]) ?_ fun _ dialect => ?_
  · simp only [listing, NodeAddress.resource]
    rw [archiveOf_path hpaths harchive]
    exact ⟨_, rfl⟩
  · simp only [text, resourceText, NodeAddress.resource, ne_eq, not_true_eq_false, if_false]
    rw [archiveOf_path hpaths harchive, Outcome.ok_bind, hcontainer]
    simp only [Option.bind_some, hfound]
    exact ⟨_, rfl⟩

/-!
## What modules list
-/

section Modules

variable (hpaths : store.paths.Nodup) (hplace : place ∈ store.modules)
  (hmodule : place.code.Navigable)

include hpaths hplace hmodule

theorem resolves_resource {resource : ManifestResource}
    (hresource : resource ∈ place.code.resources) :
    store.Resolves resolver source (place.resourceNode resource).address := by
  rcases List.mem_flatMap.mp hplace with ⟨archive, harchive, hmem⟩
  rcases CodeModule.Navigable.exists_resource hresource with ⟨found, hfound⟩
  refine resolves_of_listing ?_ ?_ fun _ dialect => ?_
  · simp [PlacedModule.resourceNode, NodeAddress.resource]
  · simp only [listing, PlacedModule.resourceNode, NodeAddress.resource]
    rw [LoadedArchive.archivePath_of_mem_modules hmem, archiveOf_path hpaths harchive]
    exact ⟨_, rfl⟩
  · show ∃ text, store.resourceText source (place.resourceNode resource).address = .ok text
    have htoken : (place.resourceNode resource).address.symbolToken ≠ Token.zero :=
      hmodule.resource_token_ne_zero hresource
    unfold resourceText
    rw [if_pos htoken, placeOf_eq hpaths hplace rfl rfl, Outcome.ok_bind]
    simp only [PlacedModule.resourceNode, NodeAddress.resource, hfound]
    exact ⟨_, rfl⟩

omit hmodule in
theorem resolves_references :
    store.Resolves resolver source (.referencesRoot place.archivePath place.containerPath) := by
  refine resolves_of_listing (by simp [NodeAddress.referencesRoot]) ?_ fun _ dialect => ?_
  · simp only [listing, NodeAddress.referencesRoot]
    rw [placeOf_eq hpaths hplace rfl rfl]
    exact ⟨_, rfl⟩
  · simp only [text, NodeAddress.referencesRoot]
    rw [placeOf_eq hpaths hplace rfl rfl]
    exact ⟨_, rfl⟩

theorem resolves_reference {reference : AssemblyReference}
    (hreference : reference ∈ place.code.references) :
    store.Resolves resolver source (place.referenceNode reference).address := by
  refine resolves_of_listing ?_ ?_ fun _ dialect => ?_
  · simp [PlacedModule.referenceNode, NodeAddress.archiveReference]
  · simp only [listing, PlacedModule.referenceNode, NodeAddress.archiveReference]
    rw [placeOf_eq hpaths hplace rfl rfl]
    exact ⟨_, rfl⟩
  · simp only [text, PlacedModule.referenceNode, NodeAddress.archiveReference]
    rw [placeOf_eq hpaths hplace rfl rfl, Outcome.ok_bind, hmodule.reference?_token hreference]
    exact ⟨_, rfl⟩

omit hmodule in
theorem resolves_namespaceNode (name : String) :
    store.Resolves resolver source (place.namespaceNode name).address :=
  ⟨⟨_, children_namespaceNode hpaths hplace name⟩, fun _ _ => ⟨_, rfl⟩⟩

/-!
## Definitions
-/

theorem resolves_type {type : TypeDefinition} (htype : type ∈ place.code.types) :
    store.Resolves resolver source (place.typeNode type).address := by
  refine ⟨⟨_, children_typeNode hpaths hplace (hmodule.type?_token htype)⟩, fun _ dialect => ?_⟩
  have hkind : (place.typeNode type).address.kind.isType = true := by
    cases hkind : type.kind <;> simp [PlacedModule.typeNode, NodeAddress.definition, hkind] <;> rfl
  rw [text_of_isType hkind, placeOf_eq hpaths hplace rfl rfl]
  exact hmodule.exists_typeText htype dialect

theorem resolves_member {member : Entity} (hmember : member ∈ place.code.members) :
    store.Resolves resolver source (place.entityNode member).address := by
  have hentity : place.code.entity? member.token = some member :=
    hmodule.entity?_eq_some_iff.mpr ⟨CodeModule.mem_entities_iff.mpr (.inr hmember), rfl⟩
  have haddress : (place.entityNode member).address =
      .definition place.archivePath place.containerPath (.ofEntity member) member.token
        member.declaringType := by
    cases member <;> rfl
  have hkind : NodeKind.isMember (.ofEntity member) = true := by
    cases member with
    | type definition => simp [CodeModule.members] at hmember
    | field definition =>
        cases hliteral : definition.isLiteral <;>
          simp [NodeKind.ofEntity, NodeKind.isMember, hliteral]
    | method definition => rfl
    | property definition => rfl
    | event definition => rfl
  rw [haddress]
  refine resolves_of_listing ?_ ⟨[], ?_⟩ fun _ dialect => ?_
  · intro hgroup
    rw [show NodeKind.ofEntity member = .baseTypesGroup from hgroup] at hkind
    cases hkind
  · rw [listing_of_isMember hkind, placeOf_eq hpaths hplace rfl rfl, Outcome.ok_bind]
    simp only [entityOf, NodeAddress.definition, hentity, Outcome.ok_bind]
  · rw [text_of_isMember hkind, placeOf_eq hpaths hplace rfl rfl]
    exact hmodule.exists_memberText hmember dialect

theorem resolves_definition {entity : Entity} (hentity : entity ∈ place.code.entities) :
    store.Resolves resolver source (place.entityNode entity).address := by
  rcases CodeModule.mem_entities_iff.mp hentity with ⟨type, htype, rfl⟩ | hmember
  · exact resolves_type hpaths hplace hmodule htype
  · exact resolves_member hpaths hplace hmodule hmember

theorem resolves_user {entity : Entity} (hentity : entity ∈ place.code.entities) :
    store.Resolves resolver source (place.analyzerNode entity).address := by
  have hfound : place.code.entity? entity.token = some entity :=
    hmodule.entity?_eq_some_iff.mpr ⟨hentity, rfl⟩
  refine resolves_of_listing ?_ ⟨[], ?_⟩ fun _ dialect => ?_
  · simp [PlacedModule.analyzerNode, NodeAddress.analyzerResult, NodeAddress.definition]
  · simp only [listing, PlacedModule.analyzerNode, NodeAddress.analyzerResult,
      NodeAddress.definition]
    rw [placeOf_eq hpaths hplace rfl rfl, Outcome.ok_bind]
    simp only [entityOf, hfound]
    rfl
  · simp only [text, PlacedModule.analyzerNode, NodeAddress.analyzerResult,
      NodeAddress.definition]
    rw [placeOf_eq hpaths hplace rfl rfl, Outcome.ok_bind]
    simp only [entityOf, hfound, Outcome.ok_bind]
    rcases CodeModule.mem_entities_iff.mp hentity with ⟨type, htype, rfl⟩ | hmember
    · exact hmodule.exists_typeText htype dialect
    · have hmemberText := hmodule.exists_memberText hmember dialect
      cases entity with
      | type definition => simp [CodeModule.members] at hmember
      | method definition => exact hmemberText
      | field definition => exact hmemberText
      | property definition => exact hmemberText
      | event definition => exact hmemberText

/-- The groups of a type find it by the token of their parent. Base types are looked for without
opening an archive. -/
theorem resolves_group (hclosed : resolver.autoLoad = false) {type : TypeDefinition}
    (htype : type ∈ place.code.types) {kind : NodeKind} (hkind : kind.isGroup = true) :
    store.Resolves resolver source
      (.group place.archivePath place.containerPath kind type.token) := by
  have hsubject : store.subjectOf source
      (.group place.archivePath place.containerPath kind type.token) =
        .ok { place, definition := type } := by
    unfold subjectOf
    rw [placeOf_eq hpaths hplace rfl rfl, Outcome.ok_bind]
    simp only [typeOf, NodeAddress.group, hmodule.type?_token htype]
  cases hgroup : kind <;> rw [hgroup] at hkind hsubject <;> try cases hkind
  case baseTypesGroup =>
    refine ⟨?_, fun hdecompilable => by cases hdecompilable⟩
    unfold children
    rw [if_pos (by rfl), hsubject]
    dsimp only
    rw [(Resolver.baseTypes_closed source hclosed hplace).1]
    exact ⟨_, rfl⟩
  all_goals
    refine resolves_of_listing (by simp [NodeAddress.group]) ?_ (fun hdecompilable => by
      cases hdecompilable)
    simp only [listing, NodeAddress.group] at hsubject ⊢
    rw [hsubject]
    exact ⟨_, rfl⟩

end Modules

/-- Whatever the store holds resolves. -/
theorem Holds.resolves (hpaths : store.paths.Nodup)
    (hmodules : ∀ place ∈ store.modules, place.code.Navigable) (hclosed : resolver.autoLoad = false)
    (h : store.Holds address) : store.Resolves resolver source address := by
  cases h with
  | codeModule hplace => exact resolves_codeModule hpaths hplace
  | container harchive hcontainer => exact resolves_container hpaths harchive hcontainer
  | folder harchive hcontainer hfolder =>
      exact resolves_folder hpaths harchive hcontainer hfolder
  | entry harchive hcontainer hentry => exact resolves_entry hpaths harchive hcontainer hentry
  | resource hplace hresource =>
      exact resolves_resource hpaths hplace (hmodules _ hplace) hresource
  | references hplace => exact resolves_references hpaths hplace
  | reference hplace hreference =>
      exact resolves_reference hpaths hplace (hmodules _ hplace) hreference
  | namespaceNode hplace name => exact resolves_namespaceNode hpaths hplace name
  | definition hplace hentity =>
      exact resolves_definition hpaths hplace (hmodules _ hplace) hentity
  | group hplace htype hkind =>
      exact resolves_group hpaths hplace (hmodules _ hplace) hclosed htype hkind
  | user hplace hentity => exact resolves_user hpaths hplace (hmodules _ hplace) hentity

end Store

end AssemblyBrowser
