import AssemblyBrowser.Proofs.Addresses.HandedOut
import AssemblyBrowser.Proofs.Containers.Expansion

/-!
# What the tree shows

The nodes of the tree show the archives, the folders and the entries of
containers, and what is in modules. Their addresses are formed in different ways;
each of these ways leaves its trace in the address, and within one of them paths,
names and tokens tell the items apart. Every item stands under one address only.
-/

namespace AssemblyBrowser

/-!
## Stores in which things can be told apart
-/

/-- Every row of a module carries the token of its number, and numbers fit tokens. -/
structure CodeModule.RowIndexed (m : CodeModule) : Prop where
  indexed : m.Indexed
  rowsFit : m.RowsFit
  catalogued : m.Catalogued
  referencesFit : m.references.size < 0x1000000
  resourcesFit : m.resources.size < 0x1000000

namespace Store

/-- One of the archives is the container. -/
def HasContainer (store : Store) (container : Container) : Prop :=
  ∃ archive ∈ store.archives, archive.container? = some container

/-- A store with well-nested and row-indexed modules and with containers whose entries have
different paths. -/
structure Separated (store : Store) : Prop where
  wellFormed : store.WellFormed
  rowIndexed : ∀ place ∈ store.modules, place.code.RowIndexed
  wellNested : ∀ place ∈ store.modules, place.code.WellNested
  entryPaths : ∀ container, store.HasContainer container →
    (container.entries.map ContainerEntry.path).Nodup

namespace Separated

variable {store : Store} (h : store.Separated)

include h

theorem archive_eq {archive other : LoadedArchive} (harchive : archive ∈ store.archives)
    (hother : other ∈ store.archives) (hpath : archive.path = other.path) : archive = other :=
  List.inj_on_of_nodup_map h.wellFormed.paths_nodup harchive hother hpath

theorem archivePath_of_hasContainer {archive : LoadedArchive} {container : Container}
    (harchive : archive ∈ store.archives) (hcontainer : archive.container? = some container) :
    container.archivePath = archive.path :=
  (h.wellFormed.archive_wellFormed archive harchive).standAt _
    (LoadedArchive.handle_of_container? hcontainer) container rfl

theorem container_eq {container other : Container} (hcontainer : store.HasContainer container)
    (hother : store.HasContainer other) (hpath : container.archivePath = other.archivePath) :
    container = other := by
  obtain ⟨archive, harchive, hopened⟩ := hcontainer
  obtain ⟨second, hsecond, hagain⟩ := hother
  rw [h.archivePath_of_hasContainer harchive hopened,
    h.archivePath_of_hasContainer hsecond hagain] at hpath
  cases h.archive_eq harchive hsecond hpath
  exact Option.some.inj (hopened.symm.trans hagain)

theorem place_eq {place other : PlacedModule} (hplace : place ∈ store.modules)
    (hother : other ∈ store.modules) (harchive : place.archivePath = other.archivePath)
    (hcontainer : place.containerPath = other.containerPath) : place = other :=
  eq_of_paths h.wellFormed.paths_nodup hplace hother harchive hcontainer

theorem entry_eq {container : Container} (hcontainer : store.HasContainer container)
    {entry other : ContainerEntry} (hentry : entry ∈ container.entries)
    (hother : other ∈ container.entries) (hpath : entry.path = other.path) : entry = other :=
  List.inj_on_of_nodup_map (h.entryPaths container hcontainer) hentry hother hpath

theorem entity_eq {place : PlacedModule} (hplace : place ∈ store.modules) {entity other : Entity}
    (hentity : entity ∈ place.code.entities) (hother : other ∈ place.code.entities)
    (htoken : entity.token = other.token) : entity = other :=
  have hrows := h.rowIndexed place hplace
  CodeModule.eq_of_token hrows.indexed hrows.rowsFit hentity hother htoken

theorem type_eq {place : PlacedModule} (hplace : place ∈ store.modules)
    {type other : TypeDefinition} (htype : type ∈ place.code.types)
    (hother : other ∈ place.code.types) (htoken : type.token = other.token) : type = other :=
  have hrows := h.rowIndexed place hplace
  hrows.indexed.token_injective (hrows.rowsFit .typeDef) htype hother htoken

end Separated
end Store

/-!
## Items
-/

/-- What a node of the tree shows. -/
inductive TreeItem where
  | archive (archive : LoadedArchive)
  | folder (container : Container) (folder : Folder)
  | entry (container : Container) (entry : ContainerEntry)
  | references (place : PlacedModule)
  | reference (place : PlacedModule) (reference : AssemblyReference)
  | namespaceNode (place : PlacedModule) (name : String)
  | resource (place : PlacedModule) (resource : ManifestResource)
  | definition (place : PlacedModule) (entity : Entity)
  | group (place : PlacedModule) (kind : NodeKind) (type : TypeDefinition)

/-- The ways in which addresses are formed. -/
inductive AddressForm where
  | archive
  | folder
  | entry
  | references
  | reference
  | namespaceNode
  | resource
  | definition
  | group
  deriving DecidableEq

/-- The way in which an address has been formed. -/
def NodeAddress.form (address : NodeAddress) : AddressForm :=
  match address.kind with
  | .assembly => if address.containerPath.isNone then .archive else .entry
  | .package => .archive
  | .packageFolder => .folder
  | .resource => if address.symbolToken = Token.zero then .entry else .resource
  | .referencesRoot => .references
  | .archiveReference => .reference
  | .namespaceNode => .namespaceNode
  | kind => if kind.isGroup then .group else .definition

namespace TreeItem

def address : TreeItem → NodeAddress
  | .archive opened => opened.node.address
  | .folder container inner => (container.folderNode inner).address
  | .entry container file => (container.entryNode file).address
  | .references place => .referencesRoot place.archivePath place.containerPath
  | .reference place assembly => (place.referenceNode assembly).address
  | .namespaceNode place name => (place.namespaceNode name).address
  | .resource place file => (place.resourceNode file).address
  | .definition place entity =>
      .definition place.archivePath place.containerPath (.ofEntity entity) entity.token
        entity.declaringType
  | .group place kind type => .group place.archivePath place.containerPath kind type.token

def form : TreeItem → AddressForm
  | .archive _ => .archive
  | .folder _ _ => .folder
  | .entry _ _ => .entry
  | .references _ => .references
  | .reference _ _ => .reference
  | .namespaceNode _ _ => .namespaceNode
  | .resource _ _ => .resource
  | .definition _ _ => .definition
  | .group _ _ _ => .group

/-- Whether an item is in the store. -/
def InStore (store : Store) : TreeItem → Prop
  | .archive opened => opened ∈ store.archives
  | .folder container inner => store.HasContainer container ∧ inner ∈ container.root.all
  | .entry container file => store.HasContainer container ∧ file ∈ container.entries
  | .references place => place ∈ store.modules
  | .reference place assembly => place ∈ store.modules ∧ assembly ∈ place.code.references
  | .namespaceNode place _ => place ∈ store.modules
  | .resource place file => place ∈ store.modules ∧ file ∈ place.code.resources
  | .definition place entity => place ∈ store.modules ∧ entity ∈ place.code.entities
  | .group place kind type =>
      place ∈ store.modules ∧ type ∈ place.code.types ∧ kind.isGroup = true

variable {store : Store}

theorem address_entry (container : Container) (entry : ContainerEntry) :
    (TreeItem.entry container entry).address.archivePath = container.archivePath ∧
      (TreeItem.entry container entry).address.containerPath = some entry.path := by
  rw [address, Container.entryNode]
  split <;> exact ⟨rfl, rfl⟩

theorem archivePath_archive (archive : LoadedArchive) :
    (TreeItem.archive archive).address.archivePath = archive.path := by
  rw [address, LoadedArchive.node]
  split <;> rfl

theorem resource_token_ne_zero {place : PlacedModule} (h : place.code.RowIndexed)
    {resource : ManifestResource} (hmem : resource ∈ place.code.resources) :
    resource.token ≠ Token.zero := by
  obtain ⟨row, -, -, htoken⟩ := h.catalogued.resources.namesRow hmem
  intro hzero
  have htable := TableId.table_token .manifestResource row
  rw [← htoken, hzero] at htable
  cases htable

/-- The address of an item tells what sort of item it is. -/
theorem form_address (h : store.Separated) {item : TreeItem} (hitem : item.InStore store) :
    item.address.form = item.form := by
  cases item with
  | archive archive =>
      rw [address, LoadedArchive.node]
      split <;> rfl
  | folder container folder => rfl
  | entry container entry =>
      rw [address, Container.entryNode]
      split <;> rfl
  | references place => rfl
  | reference place reference => rfl
  | namespaceNode place name => rfl
  | resource place resource =>
      exact if_neg (resource_token_ne_zero (h.rowIndexed place hitem.1) hitem.2)
  | definition place entity =>
      cases entity with
      | type type =>
          rw [address, NodeAddress.form]
          cases hkind : type.kind <;> simp [NodeAddress.definition, NodeKind.ofEntity,
            NodeKind.ofTypeKind, hkind, NodeKind.isGroup, form]
      | field field =>
          rw [address, NodeAddress.form]
          cases hliteral : field.isLiteral <;> simp [NodeAddress.definition, NodeKind.ofEntity,
            hliteral, NodeKind.isGroup, form]
      | method => rfl
      | property => rfl
      | event => rfl
  | group place kind type =>
      obtain ⟨-, -, hkind⟩ := hitem
      cases kind with
      | baseTypesGroup => rfl
      | derivedTypesGroup => rfl
      | analyzerGroup => rfl
      | _ => cases hkind

/-- The address of an item in the store belongs to no other item. -/
theorem eq_of_address (h : store.Separated) {item other : TreeItem} (hitem : item.InStore store)
    (hother : other.InStore store) (hsame : item.address = other.address) : item = other := by
  have hform : item.form = other.form := by
    rw [← form_address h hitem, hsame, form_address h hother]
  have harchive := congrArg NodeAddress.archivePath hsame
  have hcontainer := congrArg NodeAddress.containerPath hsame
  have hkey := congrArg NodeAddress.displayKey hsame
  have htoken := congrArg NodeAddress.symbolToken hsame
  have hparent := congrArg NodeAddress.parentToken hsame
  cases item with
  | archive archive =>
      cases other with
      | archive other =>
          rw [archivePath_archive, archivePath_archive] at harchive
          rw [h.archive_eq hitem hother harchive]
      | _ => cases hform
  | folder container folder =>
      cases other with
      | folder second other =>
          cases h.container_eq hitem.1 hother.1 harchive
          rw [List.inj_on_of_nodup_map (Folder.nodup_paths container.entries) hitem.2 hother.2
            (Option.some.inj hcontainer)]
      | _ => cases hform
  | entry container entry =>
      cases other with
      | entry second other =>
          rw [(address_entry _ _).1, (address_entry _ _).1] at harchive
          rw [(address_entry _ _).2, (address_entry _ _).2] at hcontainer
          cases h.container_eq hitem.1 hother.1 harchive
          rw [h.entry_eq hitem.1 hitem.2 hother.2 (Option.some.inj hcontainer)]
      | _ => cases hform
  | references place =>
      cases other with
      | references other => rw [h.place_eq hitem hother harchive hcontainer]
      | _ => cases hform
  | reference place reference =>
      cases other with
      | reference second other =>
          cases h.place_eq hitem.1 hother.1 harchive hcontainer
          have hrows := h.rowIndexed place hitem.1
          rw [hrows.catalogued.references.eq_of_token hrows.referencesFit hitem.2 hother.2 htoken]
      | _ => cases hform
  | namespaceNode place name =>
      cases other with
      | namespaceNode second other =>
          cases h.place_eq hitem hother harchive hcontainer
          cases (hkey : name = other)
          rfl
      | _ => cases hform
  | resource place resource =>
      cases other with
      | resource second other =>
          cases h.place_eq hitem.1 hother.1 harchive hcontainer
          have hrows := h.rowIndexed place hitem.1
          rw [hrows.catalogued.resources.eq_of_token hrows.resourcesFit hitem.2 hother.2 htoken]
      | _ => cases hform
  | definition place entity =>
      cases other with
      | definition second other =>
          cases h.place_eq hitem.1 hother.1 harchive hcontainer
          rw [h.entity_eq hitem.1 hitem.2 hother.2 htoken]
      | _ => cases hform
  | group place kind type =>
      cases other with
      | group second again other =>
          cases h.place_eq hitem.1 hother.1 harchive hcontainer
          cases (congrArg NodeAddress.kind hsame : kind = again)
          rw [h.type_eq hitem.1 hitem.2.1 hother.2.1 hparent]
      | _ => cases hform

end TreeItem

/-!
## What stands under what

The nodes under an address show items of the store, each of them once. An item
stands under one address only: its own address and the place of what it shows
lead back to that.
-/

/-- The address of the node of a folder; the root has the node of the container. -/
def Container.folderAddress (container : Container) (folder : Folder) : NodeAddress :=
  if folder.path = "" then .package container.archivePath
  else (container.folderNode folder).address

namespace TreeItem

/-- An item of the store stands under an address. -/
inductive Beneath (store : Store) : NodeAddress → TreeItem → Prop where
  | folder {container : Container} {outer inner : Folder}
      (hcontainer : store.HasContainer container) (houter : outer ∈ container.root.all)
      (hinner : inner ∈ outer.folders) :
      Beneath store (container.folderAddress outer) (.folder container inner)
  | entry {container : Container} {folder : Folder} {index : Nat} {entry : ContainerEntry}
      (hcontainer : store.HasContainer container) (hfolder : folder ∈ container.root.all)
      (hindex : index ∈ folder.entries) (hentry : container.entries[index]? = some entry) :
      Beneath store (container.folderAddress folder) (.entry container entry)
  | references {place : PlacedModule} (hplace : place ∈ store.modules) :
      Beneath store (.assembly place.archivePath place.containerPath) (.references place)
  | reference {place : PlacedModule} {reference : AssemblyReference}
      (hplace : place ∈ store.modules) (hreference : reference ∈ place.code.references) :
      Beneath store (.referencesRoot place.archivePath place.containerPath)
        (.reference place reference)
  | namespaceNode {place : PlacedModule} (hplace : place ∈ store.modules) (name : String) :
      Beneath store (.assembly place.archivePath place.containerPath) (.namespaceNode place name)
  | resource {place : PlacedModule} {resource : ManifestResource}
      (hplace : place ∈ store.modules) (hresource : resource ∈ place.code.resources) :
      Beneath store (.assembly place.archivePath place.containerPath) (.resource place resource)
  | topType {place : PlacedModule} {type : TypeDefinition} (hplace : place ∈ store.modules)
      (htype : type ∈ place.code.types) (htop : type.declaringType = none) :
      Beneath store (place.namespaceNode type.namespaceName).address
        (.definition place (.type type))
  | declared {place : PlacedModule} {owner : TypeDefinition} {entity : Entity}
      (hplace : place ∈ store.modules) (howner : owner ∈ place.code.types)
      (hentity : entity ∈ place.code.entities) (hdeclared : entity.declaringType = some owner.token) :
      Beneath store (place.typeNode owner).address (.definition place entity)
  | group {place : PlacedModule} {type : TypeDefinition} {kind : NodeKind}
      (hplace : place ∈ store.modules) (htype : type ∈ place.code.types)
      (hkind : kind.isGroup = true) :
      Beneath store (place.typeNode type).address (.group place kind type)

variable {store : Store} {address : NodeAddress} {item : TreeItem}

theorem Beneath.inStore (h : Beneath store address item) : item.InStore store := by
  cases h with
  | folder hcontainer houter hinner =>
      exact ⟨hcontainer, Folder.mem_all_of_mem_folders hinner _ houter⟩
  | entry hcontainer _ _ hentry => exact ⟨hcontainer, List.mem_of_getElem? hentry⟩
  | references hplace => exact hplace
  | reference hplace hreference => exact ⟨hplace, hreference⟩
  | namespaceNode hplace => exact hplace
  | resource hplace hresource => exact ⟨hplace, hresource⟩
  | topType hplace htype =>
      exact ⟨hplace, CodeModule.mem_entities_iff.mpr (.inl ⟨_, htype, rfl⟩)⟩
  | declared hplace _ hentity => exact ⟨hplace, hentity⟩
  | group hplace htype hkind => exact ⟨hplace, htype, hkind⟩

theorem not_beneath_archive (archive : LoadedArchive) :
    ¬ Beneath store address (.archive archive) := by
  intro h
  cases h

/-- An item stands under one address only. -/
theorem Beneath.unique (hstore : store.Separated) {other : NodeAddress}
    (h : Beneath store address item) (hother : Beneath store other item) : address = other := by
  cases h with
  | @folder container outer inner hcontainer houter hinner =>
      cases hother with
      | folder _ hagain hinside =>
          rw [Folder.eq_of_folder_in_both houter hagain hinner hinside]
  | @entry container folder index entry hcontainer hfolder hindex hentry =>
      cases hother with
      | @entry _ second again _ _ hsecond hagain hsame =>
          have hnodup := List.Nodup.of_map _ (hstore.entryPaths container hcontainer)
          obtain ⟨hlt, hget⟩ := List.getElem?_eq_some_iff.mp hentry
          obtain ⟨hlt', hget'⟩ := List.getElem?_eq_some_iff.mp hsame
          cases hnodup.getElem_inj_iff.mp (hget.trans hget'.symm)
          obtain ⟨only, -, -, -, honly⟩ := Folder.exists_of_index hlt
          rw [honly folder hfolder hindex, honly second hsecond hagain]
  | references hplace => cases hother; rfl
  | reference hplace hreference => cases hother; rfl
  | namespaceNode hplace => cases hother; rfl
  | resource hplace hresource => cases hother; rfl
  | @topType place type hplace htype htop =>
      cases hother with
      | topType => rfl
      | declared _ _ _ hdeclared => exact absurd (htop.symm.trans hdeclared) (by simp)
  | @declared place owner entity hplace howner hentity hdeclared =>
      cases hother with
      | topType _ _ htop => exact absurd (htop.symm.trans hdeclared) (by simp)
      | declared _ hagain _ hsame =>
          rw [hdeclared] at hsame
          rw [hstore.type_eq hplace howner hagain (Option.some.inj hsame)]
  | group hplace htype hkind => cases hother; rfl

end TreeItem

/-!
## Nodes and items
-/

/-- Nodes show items that stand under an address, each once. -/
structure ShowsUnder (store : Store) (address : NodeAddress) (nodes : List Node)
    (items : List TreeItem) : Prop where
  perm : (nodes.map Node.address).Perm (items.map TreeItem.address)
  nodup : items.Nodup
  beneath : ∀ item ∈ items, TreeItem.Beneath store address item

namespace ShowsUnder

variable {store : Store} {address : NodeAddress} {nodes others : List Node}
  {items more : List TreeItem}

theorem nil (store : Store) (address : NodeAddress) : ShowsUnder store address [] [] where
  perm := .refl _
  nodup := List.nodup_nil
  beneath _ hmem := absurd hmem List.not_mem_nil

theorem append (h : ShowsUnder store address nodes items)
    (hothers : ShowsUnder store address others more) (hapart : ∀ item ∈ items, item ∉ more) :
    ShowsUnder store address (nodes ++ others) (items ++ more) where
  perm := by
    rw [List.map_append, List.map_append]
    exact h.perm.append hothers.perm
  nodup := List.nodup_append.mpr ⟨h.nodup, hothers.nodup, fun item hitem other hother hsame =>
    hapart item hitem (hsame ▸ hother)⟩
  beneath item hmem := (List.mem_append.mp hmem).elim (h.beneath item) (hothers.beneath item)

/-- Sorted nodes of different things show different items. -/
theorem sortByName {α : Type} {things : List α} (node : α → Node) (item : α → TreeItem)
    (haddress : ∀ thing ∈ things, (node thing).address = (item thing).address)
    (hnodup : things.Nodup) (hinjective : Function.Injective item)
    (hbeneath : ∀ thing ∈ things, TreeItem.Beneath store address (item thing)) :
    ShowsUnder store address (Node.sortByName (things.map node)) (things.map item) where
  perm := by
    refine ((Node.sortByName_perm _).map _).trans (List.Perm.of_eq ?_)
    rw [List.map_map, List.map_map]
    exact List.map_congr_left haddress
  nodup := hnodup.map hinjective
  beneath shown hmem := by
    rcases List.mem_map.mp hmem with ⟨thing, hthing, rfl⟩
    exact hbeneath thing hthing

end ShowsUnder
end AssemblyBrowser
