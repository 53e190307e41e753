import Mathlib.Data.List.Nodup
import AssemblyBrowser.Proofs.Addresses.TreeItems
import AssemblyBrowser.Proofs.Browsing.Agreement

/-!
# No two nodes of the tree share an address

The tree begins with the open archives, and goes on with what is listed under each
node, except under the groups of answers about a type. What is listed shows items
of the store, so an address leads back to the one item that it belongs to, and by
that to all the nodes above it.
-/

namespace AssemblyBrowser

/-!
## Levels of a tree

A tree is given by its roots and by what stands under an item. Where the key of an
item tells the key of the item that it stands under, no key turns up twice in the
whole tree, as long as none does among the roots or among what stands under one
item.
-/

/-- The items that stand so many steps below the roots. -/
def level {α : Type} (under : α → List α) (roots : List α) : (depth : Nat) → List α
  | 0 => roots
  | depth + 1 => (level under roots depth).flatMap under

/-- A key leads upwards: it tells the key of what an item stands under, and whether the item is a
root. -/
structure LeadsUp {α κ : Type} (key : α → κ) (under : α → List α) (roots : List α)
    (valid : α → Prop) : Prop where
  valid_root : ∀ root ∈ roots, valid root
  valid_under : ∀ item, valid item → ∀ inner ∈ under item, valid inner
  nodup_roots : (roots.map key).Nodup
  nodup_under : ∀ item, valid item → ((under item).map key).Nodup
  root_ne : ∀ root ∈ roots, ∀ item, valid item → ∀ inner ∈ under item, key root ≠ key inner
  above_eq : ∀ item other, valid item → valid other → ∀ inner ∈ under item,
    ∀ again ∈ under other, key inner = key again → key item = key other

namespace LeadsUp

variable {α κ : Type} {key : α → κ} {under : α → List α} {roots : List α} {valid : α → Prop}

theorem valid_of_mem_level (h : LeadsUp key under roots valid) {depth : Nat} {item : α}
    (hmem : item ∈ level under roots depth) : valid item := by
  induction depth generalizing item with
  | zero => exact h.valid_root item hmem
  | succ depth ih =>
      rcases List.mem_flatMap.mp hmem with ⟨above, habove, hunder⟩
      exact h.valid_under above (ih habove) item hunder

theorem nodup_level (h : LeadsUp key under roots valid) (depth : Nat) :
    ((level under roots depth).map key).Nodup := by
  induction depth with
  | zero => exact h.nodup_roots
  | succ depth ih =>
      rw [level, List.map_flatMap, List.nodup_flatMap]
      refine ⟨fun above habove => h.nodup_under above (h.valid_of_mem_level habove), ?_⟩
      refine (List.pairwise_map.mp ih).imp_of_mem ?_
      intro above other habove hother hne k hk hagain
      rcases List.mem_map.mp hk with ⟨inner, hinner, rfl⟩
      rcases List.mem_map.mp hagain with ⟨again, hunder, hsame⟩
      exact hne (h.above_eq above other (h.valid_of_mem_level habove)
        (h.valid_of_mem_level hother) inner hinner again hunder hsame.symm)

/-- Following the keys upwards from two levels, one comes to the roots from one of them first. -/
theorem key_ne (h : LeadsUp key under roots valid) {upper : Nat} :
    ∀ {lower : Nat}, upper < lower → ∀ item ∈ level under roots upper,
      ∀ other ∈ level under roots lower, key item ≠ key other := by
  induction upper with
  | zero =>
      intro lower hlt item hitem other hother
      obtain ⟨depth, rfl⟩ := Nat.exists_eq_succ_of_ne_zero (Nat.ne_of_gt hlt)
      rcases List.mem_flatMap.mp hother with ⟨above, habove, hunder⟩
      exact h.root_ne item hitem above (h.valid_of_mem_level habove) other hunder
  | succ upper ih =>
      intro lower hlt item hitem other hother hsame
      obtain ⟨depth, rfl⟩ := Nat.exists_eq_succ_of_ne_zero (Nat.ne_of_gt (Nat.zero_lt_of_lt hlt))
      rcases List.mem_flatMap.mp hitem with ⟨above, habove, hunder⟩
      rcases List.mem_flatMap.mp hother with ⟨beyond, hbeyond, hagain⟩
      exact ih (Nat.lt_of_succ_lt_succ hlt) above habove beyond hbeyond
        (h.above_eq above beyond (h.valid_of_mem_level habove) (h.valid_of_mem_level hbeyond)
          item hunder other hagain hsame)

/-- No key turns up twice, however many levels are taken together. -/
theorem nodup_levels (h : LeadsUp key under roots valid) (count : Nat) :
    (((List.range count).flatMap (level under roots)).map key).Nodup := by
  rw [List.map_flatMap, List.nodup_flatMap]
  refine ⟨fun depth _ => h.nodup_level depth, List.pairwise_lt_range.imp ?_⟩
  intro upper lower hlt k hk hagain
  rcases List.mem_map.mp hk with ⟨item, hitem, rfl⟩
  rcases List.mem_map.mp hagain with ⟨other, hother, hsame⟩
  exact h.key_ne hlt item hitem other hother hsame.symm

end LeadsUp

/-!
## The tree of a store
-/

namespace Store

/-- The nodes under an address; groups stay closed, and what cannot be listed shows nothing. -/
def nodesUnder (store : Store) (resolver : Resolver) (source : ArchiveSource)
    (address : NodeAddress) : List Node :=
  if address.kind.isGroup then []
  else (store.children resolver source address).2.toOption.getD []

/-- The nodes of the tree that stand so many steps below the archives. -/
def treeLevel (store : Store) (resolver : Resolver) (source : ArchiveSource) : Nat → List Node :=
  level (fun node => store.nodesUnder resolver source node.address) store.roots

variable {store : Store} {resolver : Resolver} {source : ArchiveSource} {address : NodeAddress}

theorem nodesUnder_eq_listing (h : address.kind.isGroup = false) :
    store.nodesUnder resolver source address =
      (store.listing source address).toOption.getD [] := by
  have hkind : address.kind ≠ .baseTypesGroup := by
    intro hkind
    rw [hkind] at h
    cases h
  unfold nodesUnder children
  rw [h, if_neg Bool.false_ne_true, if_neg hkind]

theorem nodesUnder_of_children {nodes : List Node} (hkind : address.kind.isGroup = false)
    (h : store.children resolver source address = (store, .ok nodes)) :
    store.nodesUnder resolver source address = nodes := by
  unfold nodesUnder
  rw [hkind, if_neg Bool.false_ne_true, h]
  rfl

theorem nodesUnder_group (h : address.kind.isGroup = true) :
    store.nodesUnder resolver source address = [] := by
  unfold nodesUnder
  rw [if_pos h]

/-!
## In modules
-/

section Modules

variable (h : store.Separated) {place : PlacedModule} (hplace : place ∈ store.modules)

include h hplace

/-- Under a module stand its references, its namespaces and its resources. -/
theorem exists_shows_module : ∃ items,
    ShowsUnder store (.assembly place.archivePath place.containerPath) place.children items := by
  have hrows := h.rowIndexed place hplace
  let front : List TreeItem := if place.code.references.isEmpty then [] else [.references place]
  have hfront : ShowsUnder store (.assembly place.archivePath place.containerPath)
      (if place.code.references.isEmpty then []
        else
          [{ address := .referencesRoot place.archivePath place.containerPath
             displayName := "References"
             mayHaveChildren := true }]) front := by
    simp only [front]
    split
    · exact .nil store _
    · refine ⟨.refl _, List.nodup_singleton _, fun item hmem => ?_⟩
      rw [List.mem_singleton.mp hmem]
      exact .references hplace
  have hnamespaces := ShowsUnder.sortByName place.namespaceNode (TreeItem.namespaceNode place)
    (fun _ _ => rfl)
    (CodeModule.nodup_namespaces place.code) (fun _ _ hsame => (TreeItem.namespaceNode.inj hsame).2)
    (fun name _ => .namespaceNode hplace name)
  have hresources := ShowsUnder.sortByName place.resourceNode (TreeItem.resource place)
    (fun _ _ => rfl)
    (hrows.catalogued.resources.nodup hrows.resourcesFit)
    (fun _ _ hsame => (TreeItem.resource.inj hsame).2)
    (fun resource hmem => .resource hplace (Array.mem_toList_iff.mp hmem))
  refine ⟨_, (hfront.append hnamespaces ?_).append hresources ?_⟩
  · intro item hmem hname
    rcases List.mem_map.mp hname with ⟨name, _, rfl⟩
    simp [front] at hmem
  · intro item hmem hresource
    rcases List.mem_map.mp hresource with ⟨resource, _, rfl⟩
    simp [front] at hmem

theorem exists_shows_references : ∃ items,
    ShowsUnder store (.referencesRoot place.archivePath place.containerPath) place.referenceNodes
      items := by
  have hrows := h.rowIndexed place hplace
  exact ⟨_, ShowsUnder.sortByName _ (TreeItem.reference place) (fun _ _ => rfl)
    (hrows.catalogued.references.nodup hrows.referencesFit)
    (fun _ _ hsame => (TreeItem.reference.inj hsame).2)
    (fun reference hmem => .reference hplace (Array.mem_toList_iff.mp hmem))⟩

/-- Under a namespace stand its types. -/
theorem exists_shows_namespace (name : String) : ∃ items,
    ShowsUnder store (place.namespaceNode name).address (place.namespaceChildren name) items := by
  have hrows := h.rowIndexed place hplace
  have hindexed := hrows.indexed
  have hfit := hrows.rowsFit .typeDef
  have hfound {token : Token} {type : TypeDefinition} (htype : place.code.type? token = some type) :=
    (hindexed.type?_eq_some_iff hfit).mp htype
  refine ⟨_, ShowsUnder.sortByName _ (fun type => .definition place (.type type))
    (fun _ _ => rfl) ?_ (fun _ _ hsame => Entity.type.inj (TreeItem.definition.inj hsame).2) ?_⟩
  · have htokens : (place.code.typesInNamespace name).Nodup :=
      (hindexed.typesInNamespace_increase hrows.rowsFit name).imp fun hlt heq => by
        rw [heq] at hlt
        exact Nat.lt_irrefl _ hlt
    refine htokens.filterMap fun first second type hfirst hsecond => ?_
    rw [← (hfound hfirst).2, ← (hfound hsecond).2]
  · intro type hmem
    rcases List.mem_filterMap.mp hmem with ⟨token, htoken, htype⟩
    rcases CodeModule.mem_typesInNamespace_iff.mp htoken with ⟨top, htop, hname, htop'⟩
    rcases CodeModule.mem_topLevelTypes.mp htop with ⟨hrow, hnone, -⟩
    obtain ⟨hmem, hsame⟩ := hfound htype
    cases hindexed.token_injective hfit hrow hmem (htop'.trans hsame.symm)
    rw [← hname]
    exact .topType hplace hrow hnone

/-- Under a type stand its groups and the definitions that it lists. -/
theorem exists_shows_type {type : TypeDefinition} (htype : type ∈ place.code.types) : ∃ items,
    ShowsUnder store (place.typeNode type).address (place.typeChildren type) items := by
  have hrows := h.rowIndexed place hplace
  have hnested := h.wellNested place hplace
  have hgroup (kind : NodeKind) (hkind : kind.isGroup = true) (label : String) :
      ShowsUnder store (place.typeNode type).address [place.groupNode kind label type.token]
        [.group place kind type] := by
    refine ⟨.refl _, List.nodup_singleton _, fun item hmem => ?_⟩
    rw [List.mem_singleton.mp hmem]
    exact .group hplace htype hkind
  have hoptional (shown : Bool) (kind : NodeKind) (hkind : kind.isGroup = true) (label : String) :
      ShowsUnder store (place.typeNode type).address
        (if shown then [place.groupNode kind label type.token] else [])
        (if shown then [.group place kind type] else []) := by
    cases shown with
    | true => exact hgroup kind hkind label
    | false => exact .nil store _
  have hmembers : ShowsUnder store (place.typeNode type).address (place.memberNodes type)
      ((((type.nestedTypes ++ type.memberTokens).filterMap place.code.entity?).filter
        PlacedModule.isShown).map (.definition place)) := by
    have htokens : type.nestedTypes ++ type.fields ++ type.properties ++ type.events
        ++ type.methods = type.nestedTypes ++ type.memberTokens := by
      simp only [TypeDefinition.memberTokens, List.append_assoc]
    unfold PlacedModule.memberNodes
    rw [htokens]
    refine .sortByName _ _ (fun entity _ => by cases entity <;> rfl)
      ((hnested.nodup_listed hrows.indexed hrows.rowsFit htype).filter _)
      (fun _ _ hsame => (TreeItem.definition.inj hsame).2) fun entity hmem => ?_
    rcases List.mem_filterMap.mp (List.mem_filter.mp hmem).1 with ⟨token, htoken, hfound⟩
    exact .declared hplace htype
      ((CodeModule.entity?_eq_some_iff hrows.indexed hrows.rowsFit).mp hfound).1
      (hnested.declaringType_of_listed hrows.indexed hrows.rowsFit htype htoken hfound)
  refine ⟨_, (((hoptional _ _ rfl _).append (hoptional _ _ rfl _) ?_).append hmembers ?_).append
    (hgroup _ rfl _) ?_⟩
  · intro item hmem hother
    simp only [List.mem_ite_nil_right, List.mem_singleton] at hmem hother
    rw [hmem.2] at hother
    cases hother.2
  · intro item hmem hmember
    rcases List.mem_map.mp hmember with ⟨entity, _, rfl⟩
    simp at hmem
  · intro item hmem hlast
    rw [List.mem_singleton.mp hlast] at hmem
    simp at hmem

end Modules

/-!
## In containers
-/

section Containers

variable (h : store.Separated) {archive : LoadedArchive} {container : Container}

include h

/-- Under a folder stand the folders and the entries in it. -/
theorem exists_shows_folder (hcontainer : store.HasContainer container) {folder : Folder}
    (hfolder : folder ∈ container.root.all) : ∃ items,
    ShowsUnder store (container.folderAddress folder) (container.folderChildren folder) items := by
  have hfolders := ShowsUnder.sortByName container.folderNode (TreeItem.folder container)
    (fun _ _ => rfl) (Folder.nodup_folders hfolder)
    (fun _ _ hsame => (TreeItem.folder.inj hsame).2)
    (fun inner hinner => TreeItem.Beneath.folder hcontainer hfolder hinner)
  have hnodup := List.Nodup.of_map _ (h.entryPaths container hcontainer)
  have hentries := ShowsUnder.sortByName container.entryNode (TreeItem.entry container)
    (fun _ _ => rfl)
    ((Folder.nodup_entries hfolder).filterMap fun first second entry hfirst hsecond => by
      obtain ⟨hlt, hget⟩ := List.getElem?_eq_some_iff.mp hfirst
      obtain ⟨hlt', hget'⟩ := List.getElem?_eq_some_iff.mp hsecond
      exact hnodup.getElem_inj_iff.mp (hget.trans hget'.symm))
    (fun _ _ hsame => (TreeItem.entry.inj hsame).2)
    (fun entry hentry => by
      rcases List.mem_filterMap.mp hentry with ⟨index, hindex, hat⟩
      exact TreeItem.Beneath.entry hcontainer hfolder hindex hat)
  refine ⟨_, hfolders.append hentries fun item hmem hentry => ?_⟩
  rcases List.mem_map.mp hentry with ⟨entry, _, rfl⟩
  simp at hmem

omit h in
theorem path_root (container : Container) : container.root.path = "" := by
  unfold Container.root Folder.ofEntries
  cases Folder.draftOf container.entries
  rfl

omit h in
theorem folderAddress_root (container : Container) :
    container.folderAddress container.root = .package container.archivePath := by
  unfold Container.folderAddress
  rw [if_pos (path_root container)]

omit h in
/-- A folder inside another one is not the root, so it has a node of its own. -/
theorem folderAddress_inner {outer inner : Folder} (houter : outer ∈ container.root.all)
    (hinner : inner ∈ outer.folders) :
    container.folderAddress inner = (container.folderNode inner).address := by
  unfold Container.folderAddress
  refine if_neg fun hempty => ?_
  have hroot : inner = container.root :=
    List.inj_on_of_nodup_map (Folder.nodup_paths container.entries)
      (Folder.mem_all_of_mem_folders hinner _ houter) (Folder.mem_all_self _)
      (hempty.trans (path_root container).symm)
  have hlt := Folder.sizeOf_lt_of_mem_folders hinner
  have hle := Folder.sizeOf_le_of_mem_all container.root houter
  rw [hroot] at hlt
  omega

/-- Under a module among the entries stands what is in the module, if it can be read. -/
theorem exists_shows_entry (hcontainer : store.HasContainer container) (entry : ContainerEntry) :
    ∃ items, ShowsUnder store (container.entryNode entry).address
      (store.nodesUnder resolver source (container.entryNode entry).address) items := by
  obtain ⟨archive, harchive, hopened⟩ := hcontainer
  have hpath := h.archivePath_of_hasContainer harchive hopened
  have hfound : store.archiveOf source archive.path = _ :=
    archiveOf_path h.wellFormed.paths_nodup harchive
  cases hkind : entry.kind with
  | resource =>
      have haddress : (container.entryNode entry).address =
          .resource archive.path (some entry.path) entry.name Token.zero := by
        rw [Container.entryNode, hkind, ← hpath]
        rfl
      rw [haddress, nodesUnder_eq_listing rfl]
      refine ⟨[], ?_⟩
      simp only [listing, NodeAddress.resource]
      rw [hfound]
      exact .nil store _
  | codeModule =>
      have haddress : (container.entryNode entry).address =
          .assembly archive.path (some entry.path) := by
        rw [Container.entryNode, hkind, ← hpath]
      have hlisting : store.listing source (.assembly archive.path (some entry.path)) =
          (archive.place (some entry.path) >>= fun place => .ok place.children) := by
        simp only [listing, NodeAddress.assembly, placeOf]
        rw [hfound]
        rfl
      rw [haddress, nodesUnder_eq_listing rfl, hlisting]
      cases houtcome : archive.place (some entry.path) with
      | error error => exact ⟨[], .nil store _⟩
      | ok place =>
          have hplace := mem_modules harchive (LoadedArchive.mem_modules_of_place houtcome)
          have hpaths : place.archivePath = archive.path ∧
              place.containerPath = some entry.path := by
            rcases Outcome.bind_eq_ok.mp houtcome with ⟨code, _, hmade⟩
            rw [← Outcome.pure_eq_ok.mp hmade]
            exact ⟨rfl, rfl⟩
          have hshows := exists_shows_module h hplace
          rw [hpaths.1, hpaths.2] at hshows
          exact hshows

/-- Under an archive stands what is in its module, or in the root of its container. -/
theorem exists_shows_archive (harchive : archive ∈ store.archives) : ∃ items,
    ShowsUnder store archive.node.address
      (store.nodesUnder resolver source archive.node.address) items := by
  rcases (h.wellFormed.archive_wellFormed archive harchive).cases with
    ⟨code, hhandle⟩ | ⟨container, hcontainer, hpath⟩
  · have hplace := mem_modules harchive (LoadedArchive.mem_modules_of_handle hhandle)
    have haddress : archive.node.address = .assembly archive.path none := by
      rw [LoadedArchive.node, LoadedArchive.container?, hhandle]
    rw [haddress, nodesUnder_of_children rfl (children_assembly h.wellFormed.paths_nodup hplace)]
    exact exists_shows_module h hplace
  · have haddress : archive.node.address = container.folderAddress container.root := by
      rw [LoadedArchive.node, hcontainer, folderAddress_root, hpath]
    rw [nodesUnder_of_children (by rw [haddress, folderAddress_root]; rfl)
      (Container.children_node h.wellFormed harchive hcontainer), haddress]
    exact exists_shows_folder h ⟨archive, harchive, hcontainer⟩ (Folder.mem_all_self _)

end Containers

/-!
## In the tree
-/

/-- An archive, or an item that stands under an address. -/
def InTree (store : Store) (item : TreeItem) : Prop :=
  (∃ archive ∈ store.archives, item = .archive archive) ∨
    ∃ address, TreeItem.Beneath store address item

theorem nodesUnder_member (place : PlacedModule) {entity : Entity}
    (hmember : entity ∈ place.code.members) :
    store.nodesUnder resolver source (TreeItem.definition place entity).address = [] := by
  have hlisting (address : NodeAddress) : ((do
      let _ ← entityOf (← store.placeOf source address) address
      return [] : Except Error (List Node))).toOption.getD [] = [] := by
    cases store.placeOf source address with
    | error => rfl
    | ok place =>
        rw [Outcome.ok_bind]
        cases entityOf place address <;> rfl
  cases entity with
  | type type => exact absurd hmember (CodeModule.not_mem_members_type type)
  | field field =>
      cases hliteral : field.isLiteral with
      | true =>
          have haddress : (TreeItem.definition place (.field field)).address.kind = .constant := by
            simp [TreeItem.address, NodeAddress.definition, NodeKind.ofEntity, hliteral]
          rw [nodesUnder_eq_listing (by rw [haddress]; rfl), listing, haddress]
          exact hlisting _
      | false =>
          have haddress : (TreeItem.definition place (.field field)).address.kind = .field := by
            simp [TreeItem.address, NodeAddress.definition, NodeKind.ofEntity, hliteral]
          rw [nodesUnder_eq_listing (by rw [haddress]; rfl), listing, haddress]
          exact hlisting _
  | method method => exact (nodesUnder_eq_listing rfl).trans (hlisting _)
  | property property => exact (nodesUnder_eq_listing rfl).trans (hlisting _)
  | event event => exact (nodesUnder_eq_listing rfl).trans (hlisting _)

theorem exists_shows_definition (h : store.Separated) {place : PlacedModule}
    (hplace : place ∈ store.modules) {entity : Entity} (hentity : entity ∈ place.code.entities) :
    ∃ items, ShowsUnder store (TreeItem.definition place entity).address
      (store.nodesUnder resolver source (TreeItem.definition place entity).address) items := by
  rcases CodeModule.mem_entities_iff.mp hentity with ⟨type, htype, rfl⟩ | hmember
  · have hrows := h.rowIndexed place hplace
    have hfound := hrows.indexed.type?_token (hrows.rowsFit .typeDef) htype
    have hkind : (place.typeNode type).address.kind.isGroup = false := by
      cases hkind : type.kind <;>
        simp [PlacedModule.typeNode, NodeAddress.definition, NodeKind.ofTypeKind, hkind,
          NodeKind.isGroup]
    have hchildren : store.nodesUnder resolver source (place.typeNode type).address = _ :=
      nodesUnder_of_children hkind (children_typeNode h.wellFormed.paths_nodup hplace hfound)
    obtain ⟨items, hshows⟩ := exists_shows_type h hplace htype
    exact ⟨items, hchildren.symm ▸ hshows⟩
  · rw [nodesUnder_member place hmember]
    exact ⟨[], .nil store _⟩

/-- Under each node of the tree stand nodes that show items of the store, each once. -/
theorem exists_shows (h : store.Separated) {item : TreeItem} (hitem : store.InTree item) :
    ∃ items, ShowsUnder store item.address (store.nodesUnder resolver source item.address)
      items := by
  have hpaths := h.wellFormed.paths_nodup
  rcases hitem with ⟨archive, harchive, rfl⟩ | ⟨address, hbeneath⟩
  · exact exists_shows_archive h harchive
  · cases hbeneath with
    | @folder container outer inner hcontainer houter hinner =>
        obtain ⟨archive, harchive, hopened⟩ := hcontainer
        have hfolder := Folder.mem_all_of_mem_folders hinner _ houter
        have hshows := exists_shows_folder h ⟨archive, harchive, hopened⟩ hfolder
        rw [folderAddress_inner houter hinner] at hshows
        rw [TreeItem.address, nodesUnder_of_children rfl
          (Container.children_folderNode h.wellFormed harchive hopened hfolder)]
        exact hshows
    | @entry container folder index entry hcontainer hfolder hindex hentry =>
        exact exists_shows_entry h hcontainer entry
    | @references place hplace =>
        have hlisting : store.listing source
            (.referencesRoot place.archivePath place.containerPath) =
              .ok place.referenceNodes := by
          simp only [listing, NodeAddress.referencesRoot]
          rw [placeOf_eq hpaths hplace rfl rfl]
          rfl
        rw [TreeItem.address, nodesUnder_eq_listing rfl, hlisting]
        exact exists_shows_references h hplace
    | @reference place reference hplace hreference =>
        refine ⟨[], ?_⟩
        rw [nodesUnder_eq_listing rfl]
        simp only [listing, TreeItem.address, PlacedModule.referenceNode,
          NodeAddress.archiveReference]
        rw [placeOf_eq hpaths hplace rfl rfl]
        exact .nil store _
    | @namespaceNode place hplace name =>
        rw [TreeItem.address, nodesUnder_of_children rfl
          (children_namespaceNode hpaths hplace name)]
        exact exists_shows_namespace h hplace name
    | @resource place resource hplace hresource =>
        refine ⟨[], ?_⟩
        obtain ⟨archive, harchive, hmodule⟩ := List.mem_flatMap.mp hplace
        rw [nodesUnder_eq_listing rfl]
        simp only [listing, TreeItem.address, PlacedModule.resourceNode, NodeAddress.resource]
        rw [LoadedArchive.archivePath_of_mem_modules hmodule, archiveOf_path hpaths harchive]
        exact .nil store _
    | topType hplace htype htop =>
        exact exists_shows_definition h hplace
          (CodeModule.mem_entities_iff.mpr (.inl ⟨_, htype, rfl⟩))
    | declared hplace howner hentity hdeclared => exact exists_shows_definition h hplace hentity
    | @group place type kind hplace htype hkind =>
        refine ⟨[], ?_⟩
        rw [nodesUnder_group hkind]
        exact .nil store _

/-- A node that shows an item of the tree. -/
def ShowsItem (store : Store) (node : Node) : Prop :=
  ∃ item, store.InTree item ∧ node.address = item.address

/-- Addresses of nodes lead upwards in the tree. -/
theorem leadsUp (h : store.Separated) (resolver : Resolver) (source : ArchiveSource) :
    LeadsUp Node.address (fun node => store.nodesUnder resolver source node.address) store.roots
      store.ShowsItem := by
  have hunder {node inner : Node} (hnode : store.ShowsItem node)
      (hinner : inner ∈ store.nodesUnder resolver source node.address) :
      ∃ item, TreeItem.Beneath store node.address item ∧ inner.address = item.address := by
    obtain ⟨item, hitem, haddress⟩ := hnode
    rw [haddress] at hinner ⊢
    obtain ⟨items, hshows⟩ : ∃ items, ShowsUnder store item.address
      (store.nodesUnder resolver source item.address) items := exists_shows h hitem
    have hmem := hshows.perm.subset (List.mem_map_of_mem hinner)
    obtain ⟨shown, hshown, hsame⟩ := List.mem_map.mp hmem
    exact ⟨shown, hshows.beneath shown hshown, hsame.symm⟩
  have hroot {root : Node} (hmem : root ∈ store.roots) :
      ∃ archive ∈ store.archives, root.address = (TreeItem.archive archive).address := by
    rcases List.mem_map.mp hmem with ⟨archive, harchive, rfl⟩
    exact ⟨archive, harchive, rfl⟩
  constructor
  case valid_root =>
    intro root hmem
    obtain ⟨archive, harchive, haddress⟩ := hroot hmem
    exact ⟨_, .inl ⟨archive, harchive, rfl⟩, haddress⟩
  case valid_under =>
    intro node hnode inner hinner
    obtain ⟨item, hbeneath, haddress⟩ := hunder hnode hinner
    exact ⟨item, .inr ⟨_, hbeneath⟩, haddress⟩
  case nodup_roots =>
    rw [roots, List.map_map]
    refine List.Nodup.map_on ?_ (List.Nodup.of_map _ h.wellFormed.paths_nodup)
    intro archive harchive other hother hsame
    exact TreeItem.archive.inj (TreeItem.eq_of_address h harchive hother hsame)
  case nodup_under =>
    rintro node ⟨item, hitem, haddress⟩
    obtain ⟨items, hshows⟩ : ∃ items, ShowsUnder store item.address
      (store.nodesUnder resolver source item.address) items := exists_shows h hitem
    rw [haddress, hshows.perm.nodup_iff]
    refine List.Nodup.map_on ?_ hshows.nodup
    intro first hfirst second hsecond hsame
    exact TreeItem.eq_of_address h (hshows.beneath first hfirst).inStore
      (hshows.beneath second hsecond).inStore hsame
  case root_ne =>
    intro root hmem node hnode inner hinner hsame
    obtain ⟨archive, harchive, hfirst⟩ := hroot hmem
    obtain ⟨item, hbeneath, hsecond⟩ := hunder hnode hinner
    rw [hfirst, hsecond] at hsame
    have hitem : TreeItem.archive archive = item :=
      TreeItem.eq_of_address h harchive hbeneath.inStore hsame
    cases hitem
    exact TreeItem.not_beneath_archive archive hbeneath
  case above_eq =>
    intro node other hnode hother inner hinner again hagain hsame
    obtain ⟨item, hbeneath, hfirst⟩ := hunder hnode hinner
    obtain ⟨second, hbelow, hsecond⟩ := hunder hother hagain
    rw [hfirst, hsecond] at hsame
    cases TreeItem.eq_of_address h hbeneath.inStore hbelow.inStore hsame
    exact hbeneath.unique h hbelow

/-- All addresses of nodes in the tree are different, if modules are well-nested and row-indexed
and the entries of a container have different paths. -/
theorem addresses_identify_nodes (h : store.Separated) (resolver : Resolver)
    (source : ArchiveSource) (depth : Nat) :
    (((List.range depth).flatMap (store.treeLevel resolver source)).map Node.address).Nodup :=
  (leadsUp h resolver source).nodup_levels depth

/-- A package with a folder that holds a module and a text. -/
def modulePackage : Container :=
  { archivePath := "/p.nupkg"
    format := .package
    entries :=
      [{ Container.sampleEntry "M.dll" "lib/M.dll" with kind := .codeModule },
        Container.sampleEntry "a.txt" "lib/a.txt"]
    readModule _ := .ok nestedModule }

/-- The package beside a file with the same module. -/
def packageStore : Store :=
  { archives :=
      [(LoadedArchive.unopened "/p.nupkg" none).withHandle (.container modulePackage),
        (LoadedArchive.unopened "M.dll" none).withHandle (.codeModule nestedModule)] }

theorem nestedModule_rowIndexed : nestedModule.RowIndexed where
  indexed := CodeModule.indexed_ofSteps "M" _
  rowsFit table := by cases table <;> decide
  catalogued := (CodeModule.Produced.built "M" _).catalogued
  referencesFit := by decide
  resourcesFit := by decide

theorem packageStore_separated : packageStore.Separated := by
  have hmodules : packageStore.modules =
      [{ archivePath := "/p.nupkg", containerPath := some "lib/M.dll", code := nestedModule },
        { archivePath := "M.dll", containerPath := none, code := nestedModule }] := rfl
  have hcode : ∀ place ∈ packageStore.modules, place.code = nestedModule := by
    simp [hmodules]
  constructor
  case wellFormed =>
    constructor
    · decide
    · intro archive harchive
      rcases List.mem_pair.mp harchive with rfl | rfl
      · exact LoadedArchive.opened_wellFormed none (ArchiveContents.container_standAt rfl)
      · exact LoadedArchive.opened_wellFormed none (ArchiveContents.codeModule_standAt _ _)
  case rowIndexed => exact fun place hplace => hcode place hplace ▸ nestedModule_rowIndexed
  case wellNested =>
    exact fun place hplace => hcode place hplace ▸ nestedModule_browsable.wellNested
  case entryPaths =>
    rintro container ⟨archive, harchive, hcontainer⟩
    rcases List.mem_pair.mp harchive with rfl | rfl
    · cases hcontainer
      decide
    · cases hcontainer

/-- Nodes of the package, of what it holds and of the file beside it have different addresses. -/
theorem packageStore_addresses_differ :
    packageStore.Separated ∧
      (((List.range 6).flatMap (packageStore.treeLevel {} (.ofFiles .standard {}))).map
        Node.address).Nodup :=
  ⟨packageStore_separated,
    addresses_identify_nodes packageStore_separated {} (.ofFiles .standard {}) 6⟩

end Store
end AssemblyBrowser
