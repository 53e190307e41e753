import AssemblyBrowser.Proofs.Addresses.Resolving
import AssemblyBrowser.Search.Scan

/-!
# Every address handed out resolves

While the store stays as it is, the addresses of all nodes that listings and
searches show can be used: what stands under them can be listed, and where they
promise a text it can be written in every dialect. Only supertypes that were not
found and entries whose module cannot be read are left out.

Nodes come from two places. Listings show what stands under an address, and
searches show what they find in any of their modes. Either way a node has the
address of something that the store holds. Two kinds of nodes say of themselves
that they may not lead anywhere: supertypes that could not be resolved, and the
entries of containers that are named like modules.
-/

namespace AssemblyBrowser

namespace Store

/-- An entry that is shown as a module, though the container cannot read one under its path. -/
def Unreadable (store : Store) (node : Node) : Prop :=
  ∃ archive ∈ store.archives, ∃ container, archive.container? = some container ∧
    ∃ entry ∈ container.moduleEntries, node = container.entryNode entry ∧
      ∃ error, container.codeModule entry.path = .error error

variable {store : Store} {resolver : Resolver} {source : ArchiveSource} {place : PlacedModule}
  {archive : LoadedArchive} {container : Container} {address : NodeAddress} {node : Node}

theorem mem_sortByName {nodes : List Node} (h : node ∈ Node.sortByName nodes) : node ∈ nodes :=
  List.mem_mergeSort.mp h

/-!
## Archives and containers
-/

theorem holds_archive (harchive : archive ∈ store.archives) (hwellFormed : archive.WellFormed) :
    store.Holds archive.node.address := by
  rcases hwellFormed.cases with ⟨code, hhandle⟩ | ⟨container, hcontainer, _⟩
  · have hplace := mem_modules harchive (LoadedArchive.mem_modules_of_handle hhandle)
    have hnone : archive.container? = none := by rw [LoadedArchive.container?, hhandle]
    have haddress : archive.node.address = .assembly archive.path none := by
      rw [LoadedArchive.node, hnone]
    rw [haddress]
    exact .codeModule hplace
  · have haddress : archive.node.address = .package archive.path := by
      rw [LoadedArchive.node, hcontainer]
    rw [haddress]
    exact .container harchive hcontainer

theorem holds_entryNode (harchive : archive ∈ store.archives) (hwellFormed : archive.WellFormed)
    (hcontainer : archive.container? = some container) {entry : ContainerEntry}
    (hentry : entry ∈ container.entries) :
    store.Unreadable (container.entryNode entry) ∨
      store.Holds (container.entryNode entry).address := by
  have hhandle := LoadedArchive.handle_of_container? hcontainer
  have hpath := hwellFormed.standAt _ hhandle container rfl
  cases hkind : entry.kind with
  | codeModule =>
      have hmodule : entry ∈ container.moduleEntries :=
        List.mem_filter.mpr ⟨hentry, beq_iff_eq.mpr hkind⟩
      cases hread : container.codeModule entry.path with
      | error error =>
          exact .inl ⟨archive, harchive, container, hcontainer, entry, hmodule, rfl, error, hread⟩
      | ok code =>
          have hplace : archive.place (some entry.path) =
              .ok { archivePath := archive.path, containerPath := some entry.path, code } := by
            unfold LoadedArchive.place LoadedArchive.codeModule
            rw [hhandle]
            dsimp only
            rw [hread]
            rfl
          have haddress : (container.entryNode entry).address =
              .assembly archive.path (some entry.path) := by
            rw [Container.entryNode, hkind, ← hpath]
          -- The path may be that of several entries: the module is the one that it reads.
          have hmem := mem_modules harchive (LoadedArchive.mem_modules_of_place hplace)
          rw [haddress]
          exact .inr (.codeModule hmem)
  | resource =>
      have haddress : (container.entryNode entry).address =
          .resource archive.path (some entry.path) entry.name Token.zero := by
        rw [Container.entryNode, hkind, ← hpath]
        rfl
      rw [haddress]
      exact .inr (.entry harchive hcontainer hentry)

theorem holds_folderChildren (harchive : archive ∈ store.archives)
    (hwellFormed : archive.WellFormed) (hcontainer : archive.container? = some container)
    {folder : Folder} (hfolder : folder ∈ container.root.all)
    (hnode : node ∈ container.folderChildren folder) :
    store.Unreadable node ∨ store.Holds node.address := by
  have hpath := hwellFormed.standAt _ (LoadedArchive.handle_of_container? hcontainer) container rfl
  rcases List.mem_append.mp hnode with hfolders | hentries
  · rcases List.mem_map.mp (mem_sortByName hfolders) with ⟨inner, hinner, rfl⟩
    have hmem := Folder.mem_all_of_mem_folders hinner container.root hfolder
    show _ ∨ store.Holds (.packageFolder container.archivePath inner.path inner.name)
    rw [hpath]
    exact .inr (.folder harchive hcontainer hmem)
  · rcases List.mem_map.mp (mem_sortByName hentries) with ⟨entry, hentry, rfl⟩
    rcases List.mem_filterMap.mp hentry with ⟨index, _, hindex⟩
    exact holds_entryNode harchive hwellFormed hcontainer (List.mem_of_getElem? hindex)

/-!
## Modules
-/

theorem holds_moduleChildren (hplace : place ∈ store.modules) (hnode : node ∈ place.children) :
    store.Holds node.address := by
  rcases List.mem_append.mp hnode with hfront | hresources
  · rcases List.mem_append.mp hfront with hreferences | hnamespaces
    · rw [List.mem_singleton.mp (List.mem_ite_nil_left.mp hreferences).2]
      exact .references hplace
    · rcases List.mem_map.mp (mem_sortByName hnamespaces) with ⟨name, _, rfl⟩
      exact .namespaceNode hplace name
  · rcases List.mem_map.mp (mem_sortByName hresources) with ⟨resource, hresource, rfl⟩
    exact .resource hplace (Array.mem_toList_iff.mp hresource)

theorem holds_referenceNodes (hplace : place ∈ store.modules)
    (hnode : node ∈ place.referenceNodes) : store.Holds node.address := by
  rcases List.mem_map.mp (mem_sortByName hnode) with ⟨reference, hreference, rfl⟩
  exact .reference hplace (Array.mem_toList_iff.mp hreference)

theorem holds_typeNode (hplace : place ∈ store.modules) {type : TypeDefinition}
    (htype : type ∈ place.code.types) : store.Holds (place.typeNode type).address :=
  .definition hplace (CodeModule.mem_entities_iff.mpr (.inl ⟨type, htype, rfl⟩))

theorem holds_entityNode (hplace : place ∈ store.modules) (hmodule : place.code.Navigable)
    {token : Token} {entity : Entity} (hfound : place.code.entity? token = some entity) :
    store.Holds (place.entityNode entity).address :=
  .definition hplace (hmodule.entity?_eq_some_iff.mp hfound).1

theorem holds_namespaceChildren (hplace : place ∈ store.modules) (hmodule : place.code.Navigable)
    {name : String} (hnode : node ∈ place.namespaceChildren name) : store.Holds node.address := by
  rcases List.mem_map.mp (mem_sortByName hnode) with ⟨type, htype, rfl⟩
  rcases List.mem_filterMap.mp htype with ⟨token, _, hfound⟩
  exact holds_typeNode hplace (hmodule.type?_eq_some_iff.mp hfound).1

theorem holds_groupNode (hplace : place ∈ store.modules) {type : TypeDefinition}
    (htype : type ∈ place.code.types) {kind : NodeKind} (hkind : kind.isGroup = true)
    (name : String) : store.Holds (place.groupNode kind name type.token).address :=
  .group hplace htype hkind

theorem holds_typeChildren (hplace : place ∈ store.modules) (hmodule : place.code.Navigable)
    {type : TypeDefinition} (htype : type ∈ place.code.types)
    (hnode : node ∈ place.typeChildren type) : store.Holds node.address := by
  simp only [PlacedModule.typeChildren, List.mem_append] at hnode
  rcases hnode with ((hbase | hderived) | hmember) | huser
  · rw [List.mem_singleton.mp (List.mem_ite_nil_right.mp hbase).2]
    exact holds_groupNode hplace htype rfl _
  · rw [List.mem_singleton.mp (List.mem_ite_nil_right.mp hderived).2]
    exact holds_groupNode hplace htype rfl _
  · rcases List.mem_map.mp (mem_sortByName hmember) with ⟨entity, hentity, rfl⟩
    rcases List.mem_filterMap.mp (List.mem_filter.mp hentity).1 with ⟨token, _, hfound⟩
    exact holds_entityNode hplace hmodule hfound
  · rw [List.mem_singleton.mp huser]
    exact holds_groupNode hplace htype rfl _

/-!
## Relations
-/

theorem holds_derivedTypes {fullName : String} (hnode : node ∈ store.derivedTypes fullName) :
    store.Holds node.address := by
  rcases List.mem_flatMap.mp (mem_sortByName hnode) with ⟨place, hplace, hderived⟩
  rcases List.mem_map.mp hderived with ⟨type, htype, rfl⟩
  exact holds_typeNode hplace (Array.mem_toList_iff.mp (List.mem_filter.mp htype).1)

theorem mem_entities_of_mem_possibleUsers {fullName : String} {entity : Entity}
    (h : entity ∈ place.possibleUsers fullName) : entity ∈ place.code.entities := by
  simp only [PlacedModule.possibleUsers, CodeModule.entities, List.mem_append, List.mem_map,
    List.mem_filter] at h ⊢
  rcases h with (((⟨type, htype, rfl⟩ | hfield) | hproperty) | hevent) | ⟨method, hmethod, rfl⟩
  · exact .inl (.inl (.inl (.inl ⟨type, htype.1, rfl⟩)))
  · exact .inl (.inl (.inr hfield))
  · exact .inl (.inr hproperty)
  · exact .inr hevent
  · exact .inl (.inl (.inl (.inr ⟨method, hmethod.1, rfl⟩)))

theorem holds_users {fullName : String} (hnode : node ∈ store.users fullName) :
    store.Holds node.address := by
  rcases List.mem_flatMap.mp (mem_sortByName hnode) with ⟨place, hplace, huser⟩
  rcases List.mem_map.mp huser with ⟨entity, hentity, rfl⟩
  exact .user hplace (mem_entities_of_mem_possibleUsers (List.mem_filter.mp hentity).1)

/-!
## Listings
-/

/-- What an address of a container leads to is one of its folders. -/
theorem holds_folder (hstore : store.WellFormed)
    (hcontainer : store.containerOf source address = .ok container) {folder : Folder}
    (hfolder : container.folderOf address = .ok folder)
    (hnode : node ∈ container.folderChildren folder) :
    store.Unreadable node ∨ store.Holds node.address := by
  rcases mem_archives_of_containerOf hcontainer with ⟨archive, harchive, hopened⟩
  refine holds_folderChildren harchive (hstore.archive_wellFormed archive harchive) hopened ?_ hnode
  unfold Container.folderOf at hfolder
  split at hfolder
  case isTrue =>
    rw [← Except.ok.inj hfolder]
    exact Folder.mem_all_self _
  case isFalse =>
    split at hfolder
    case h_1 found hfound =>
      rcases Option.bind_eq_some_iff.mp hfound with ⟨path, _, hfind⟩
      rw [← Except.ok.inj hfolder]
      exact Folder.mem_all_of_find? hfind
    case h_2 => cases hfolder

theorem defines_of_typeOf (hplace : place ∈ store.modules) (hmodule : place.code.Navigable)
    {token : Token} {found : PlacedType} (h : typeOf place token = .ok found) :
    store.Defines found := by
  unfold typeOf at h
  split at h
  case h_1 definition hfound =>
    rw [← Except.ok.inj h]
    exact ⟨hplace, (hmodule.type?_eq_some_iff.mp hfound).1⟩
  case h_2 => cases h

/-- A listing under any address whatever shows what the store holds. -/
theorem holds_listing (hstore : store.WellFormed)
    (hmodules : ∀ place ∈ store.modules, place.code.Navigable) {nodes : List Node}
    (hlisting : store.listing source address = .ok nodes) (hnode : node ∈ nodes) :
    store.Unreadable node ∨ store.Holds node.address := by
  unfold listing at hlisting
  cases hkind : address.kind with rw [hkind] at hlisting
  | assembly =>
      rcases Outcome.bind_eq_ok.mp hlisting with ⟨place, hplace, hnodes⟩
      rw [← Outcome.pure_eq_ok.mp hnodes] at hnode
      exact .inr (holds_moduleChildren (mem_modules_of_placeOf hplace) hnode)
  | package | packageFolder =>
      rcases Outcome.bind_eq_ok.mp hlisting with ⟨container, hcontainer, hfolder⟩
      rcases Outcome.bind_eq_ok.mp hfolder with ⟨folder, hfolder, hnodes⟩
      rw [← Outcome.pure_eq_ok.mp hnodes] at hnode
      exact holds_folder hstore hcontainer hfolder hnode
  | resource | archiveReference =>
      rcases Outcome.bind_eq_ok.mp hlisting with ⟨_, _, hnodes⟩
      rw [← Outcome.pure_eq_ok.mp hnodes] at hnode
      cases hnode
  | referencesRoot =>
      rcases Outcome.bind_eq_ok.mp hlisting with ⟨place, hplace, hnodes⟩
      rw [← Outcome.pure_eq_ok.mp hnodes] at hnode
      exact .inr (holds_referenceNodes (mem_modules_of_placeOf hplace) hnode)
  | namespaceNode =>
      rcases Outcome.bind_eq_ok.mp hlisting with ⟨place, hplace, hnodes⟩
      rw [← Outcome.pure_eq_ok.mp hnodes] at hnode
      have hmem := mem_modules_of_placeOf hplace
      exact .inr (holds_namespaceChildren hmem (hmodules place hmem) hnode)
  | classType | interfaceType | structType | enumType | delegateType =>
      rcases Outcome.bind_eq_ok.mp hlisting with ⟨place, hplace, htype⟩
      rcases Outcome.bind_eq_ok.mp htype with ⟨found, hfound, hnodes⟩
      rw [← Outcome.pure_eq_ok.mp hnodes] at hnode
      have hmem := mem_modules_of_placeOf hplace
      have hdefines := defines_of_typeOf hmem (hmodules place hmem) hfound
      exact .inr (holds_typeChildren hdefines.1 (hmodules _ hdefines.1) hdefines.2 hnode)
  | method | field | property | event | constant | analyzerResult =>
      rcases Outcome.bind_eq_ok.mp hlisting with ⟨_, _, hentity⟩
      rcases Outcome.bind_eq_ok.mp hentity with ⟨_, _, hnodes⟩
      rw [← Outcome.pure_eq_ok.mp hnodes] at hnode
      cases hnode
  | baseTypesGroup =>
      rw [← Outcome.pure_eq_ok.mp hlisting] at hnode
      cases hnode
  | derivedTypesGroup =>
      rcases Outcome.bind_eq_ok.mp hlisting with ⟨subject, _, hnodes⟩
      rw [← Outcome.pure_eq_ok.mp hnodes] at hnode
      exact .inr (holds_derivedTypes hnode)
  | analyzerGroup =>
      rcases Outcome.bind_eq_ok.mp hlisting with ⟨subject, _, hnodes⟩
      rw [← Outcome.pure_eq_ok.mp hnodes] at hnode
      exact .inr (holds_users hnode)

theorem holds_baseTypes (hclosed : resolver.autoLoad = false) {subject : PlacedType}
    (hplace : subject.place ∈ store.modules)
    (hnode : node ∈ (resolver.baseTypes source store subject).2) :
    node.badges = .unresolved ∨ store.Holds node.address := by
  rcases (Resolver.baseTypes_closed source hclosed hplace).2 node hnode with
    hunresolved | ⟨found, hfound, rfl⟩
  · exact .inl hunresolved
  · exact .inr (holds_typeNode hfound.1 hfound.2)

/-- So does what stands under an address, but for supertypes without a definition. -/
theorem holds_children (hstore : store.WellFormed)
    (hmodules : ∀ place ∈ store.modules, place.code.Navigable) (hclosed : resolver.autoLoad = false)
    {nodes : List Node} (hchildren : (store.children resolver source address).2 = .ok nodes)
    (hnode : node ∈ nodes) :
    node.badges = .unresolved ∨ store.Unreadable node ∨ store.Holds node.address := by
  unfold children at hchildren
  split at hchildren
  case isTrue =>
    split at hchildren
    case h_1 subject hsubject =>
      rcases Outcome.bind_eq_ok.mp hsubject with ⟨place, hplace, hfound⟩
      have hmem := mem_modules_of_placeOf hplace
      have hdefines := defines_of_typeOf hmem (hmodules place hmem) hfound
      rw [← Except.ok.inj hchildren] at hnode
      exact (holds_baseTypes hclosed hdefines.1 hnode).imp_right .inr
    case h_2 => cases hchildren
  case isFalse => exact .inr (holds_listing hstore hmodules hchildren hnode)

/-!
## Searches
-/

section Searches

variable {request : SearchRequest} {found : SearchMatch}

theorem holds_definitionMatches (hplace : place ∈ store.modules) (hmodule : place.code.Navigable)
    (h : found ∈ request.definitionMatches place) : store.Holds found.node.address := by
  rcases List.mem_flatMap.mp h with ⟨type, htype, hfound⟩
  have hmem := Array.mem_toList_iff.mp (List.mem_filter.mp htype).1
  rcases List.mem_append.mp hfound with htypeMatch | hmember
  · have hsame := (List.mem_ite_nil_right.mp htypeMatch).2
    rw [List.mem_singleton.mp hsame]
    exact holds_typeNode hplace hmem
  · rcases List.mem_flatMap.mp hmember with ⟨entity, hentity, hmatch⟩
    rcases List.mem_filterMap.mp hentity with ⟨token, _, hlookup⟩
    have hsame := (List.mem_ite_nil_right.mp hmatch).2
    rw [List.mem_singleton.mp hsame]
    exact holds_entityNode hplace hmodule hlookup

theorem holds_namespaceMatches (hplace : place ∈ store.modules)
    (h : found ∈ request.namespaceMatches place) : store.Holds found.node.address := by
  rcases List.mem_map.mp h with ⟨name, _, rfl⟩
  exact .namespaceNode hplace name

theorem holds_tokenMatches (hplace : place ∈ store.modules) (hmodule : place.code.Navigable)
    (h : found ∈ request.tokenMatches place) : store.Holds found.node.address := by
  rcases List.mem_flatMap.mp h with ⟨entity, hentity, hmatch⟩
  rcases Option.bind_eq_some_iff.mp (Option.mem_toList.mp hentity) with ⟨token, _, hlookup⟩
  have hsame := (List.mem_ite_nil_right.mp hmatch).2
  rw [List.mem_singleton.mp hsame]
  exact holds_entityNode hplace hmodule hlookup

theorem holds_literalMatches (hplace : place ∈ store.modules)
    (h : found ∈ request.literalMatches place) : store.Holds found.node.address := by
  rcases List.mem_map.mp h with ⟨field, hfield, rfl⟩
  refine .definition hplace (CodeModule.mem_entities_iff.mpr (.inr ?_))
  simpa [CodeModule.members] using (List.mem_filter.mp hfield).1

theorem holds_resourceMatches (hplace : place ∈ store.modules)
    (h : found ∈ request.resourceMatches place) : store.Holds found.node.address := by
  rcases List.mem_map.mp h with ⟨resource, hresource, rfl⟩
  exact .resource hplace (Array.mem_toList_iff.mp (List.mem_filter.mp hresource).1)

theorem holds_entryMatches (harchive : archive ∈ store.archives)
    (h : found ∈ request.entryMatches archive) : store.Holds found.node.address := by
  unfold SearchRequest.entryMatches at h
  split at h
  case h_1 => cases h
  case h_2 container hcontainer =>
    rcases List.mem_map.mp h with ⟨entry, hentry, rfl⟩
    exact .entry harchive hcontainer (List.mem_filter.mp hentry).1

theorem holds_archiveMatch (harchive : archive ∈ store.archives)
    (hwellFormed : archive.WellFormed) {text : ArchiveText}
    (h : found ∈ request.archiveMatch text archive) : store.Holds found.node.address := by
  have hsame := (List.mem_ite_nil_right.mp h).2
  rw [List.mem_singleton.mp hsame]
  exact holds_archive harchive hwellFormed

theorem holds_moduleMatches (hplace : place ∈ store.modules) (hmodule : place.code.Navigable)
    (h : found ∈ request.moduleMatches place) : store.Holds found.node.address := by
  unfold SearchRequest.moduleMatches at h
  split at h
  · exact holds_namespaceMatches hplace h
  · exact holds_tokenMatches hplace hmodule h
  · exact holds_literalMatches hplace h
  · exact holds_resourceMatches hplace h
  · exact holds_definitionMatches hplace hmodule h

/-- Whatever a search finds, in whichever mode, is in the store. -/
theorem holds_search (hstore : store.WellFormed)
    (hmodules : ∀ place ∈ store.modules, place.code.Navigable)
    (h : found ∈ store.search request) : store.Holds found.node.address := by
  unfold search at h
  split at h
  case isTrue => cases h
  case isFalse =>
    rcases List.mem_flatMap.mp (List.mem_mergeSort.mp h) with ⟨archive, harchive, hmatch⟩
    unfold SearchRequest.matchesIn at hmatch
    split at hmatch
    case h_1 text _ =>
      exact holds_archiveMatch harchive (hstore.archive_wellFormed archive harchive) hmatch
    case h_2 =>
      rcases List.mem_append.mp hmatch with hentry | hmodule
      · exact holds_entryMatches harchive (List.mem_ite_nil_right.mp hentry).2
      · rcases List.mem_flatMap.mp hmodule with ⟨place, hplace, hfound⟩
        have hmem := mem_modules harchive (List.mem_filter.mp hplace).1
        exact holds_moduleMatches hmem (hmodules place hmem) hfound

end Searches

end Store

/-!
## What is handed out
-/

/-- Whether all of some badges are among the badges. -/
def Badges.includes (badges badge : Badges) : Bool := badges.bits &&& badge.bits == badge.bits

namespace Store

/-- A node that is among the open archives, stands under any address, or is found by any search. -/
inductive HandedOut (store : Store) (resolver : Resolver) (source : ArchiveSource) : Node → Prop
  | root {node : Node} (hnode : node ∈ store.roots) : HandedOut store resolver source node
  | under {address : NodeAddress} {nodes : List Node} {node : Node}
      (hchildren : (store.children resolver source address).2 = .ok nodes)
      (hnode : node ∈ nodes) : HandedOut store resolver source node
  | found {request : SearchRequest} {found : SearchMatch}
      (hfound : found ∈ store.search request) : HandedOut store resolver source found.node

variable {store : Store} {resolver : Resolver} {source : ArchiveSource}

/-- What is handed out is in the store, unless it says that it may not be. -/
theorem HandedOut.holds (hstore : store.WellFormed)
    (hmodules : ∀ place ∈ store.modules, place.code.Navigable) (hclosed : resolver.autoLoad = false)
    {node : Node} (h : store.HandedOut resolver source node) :
    node.badges = .unresolved ∨ store.Unreadable node ∨ store.Holds node.address := by
  cases h with
  | root hnode =>
      rcases List.mem_map.mp hnode with ⟨archive, harchive, rfl⟩
      exact .inr (.inr (holds_archive harchive (hstore.archive_wellFormed archive harchive)))
  | under hchildren hnode => exact holds_children hstore hmodules hclosed hchildren hnode
  | found hfound => exact .inr (.inr (holds_search hstore hmodules hfound))

theorem HandedOut.resolves (hstore : store.WellFormed)
    (hmodules : ∀ place ∈ store.modules, place.code.Navigable) (hclosed : resolver.autoLoad = false)
    {node : Node} (h : store.HandedOut resolver source node)
    (hbadge : node.badges.includes .unresolved = false) (hreadable : ¬ store.Unreadable node) :
    store.Resolves resolver source node.address := by
  rcases h.holds hstore hmodules hclosed with hunresolved | hunreadable | hholds
  · rw [hunresolved] at hbadge
    cases hbadge
  · exact absurd hunreadable hreadable
  · exact hholds.resolves hstore.paths_nodup hmodules hclosed

end Store

/-!
## Runs of the worker
-/

namespace Worker

/-- After any commands, in any world that the worker may have found at each of them, the addresses
that are handed out resolve if the modules that are open are sound and no archives are opened on
behalf of others. -/
theorem handed_out_addresses_resolve (sessionFile : Option String) (files : FileSystem)
    (events : List WorkerEvent) {resolver : Resolver} (hclosed : resolver.autoLoad = false)
    (source : ArchiveSource)
    (hmodules : ∀ place ∈ ((start sessionFile files).run events).store.modules,
      place.code.Navigable)
    {node : Node}
    (hnode : ((start sessionFile files).run events).store.HandedOut resolver source node)
    (hbadge : node.badges.includes .unresolved = false)
    (hreadable : ¬ ((start sessionFile files).run events).store.Unreadable node) :
    ((start sessionFile files).run events).store.Resolves resolver source node.address :=
  hnode.resolves (wellFormed_run events Store.empty_wellFormed) hmodules hclosed hbadge hreadable

/-- A module with a type inside another one, which has a field, with a reference and a resource. -/
def sampleModule : CodeModule :=
  (CodeModule.ofSteps "M"
    [.type "N" "A" .classType 0, .nestedType (TableId.typeDef.token 2) "B" .classType 0,
      .field (TableId.typeDef.token 3) "f" 0 .object,
      .reference { name := "R", version := ⟨1, 0, 0, 0⟩ }, .resource "r" 4 true]).1

theorem sampleModule_navigable : sampleModule.Navigable where
  produced := .built "M" _
  rowsFit table := by cases table <;> decide
  referencesFit := by decide
  acyclic := CodeModule.acyclic_of_rows_increase (by decide)
  declared := by decide

/-- A loader that finds the sample in every file. -/
def sampleLoader : ModuleLoader where
  ofFile _ _ := .ok sampleModule
  ofBytes _ _ := .ok sampleModule

/-- A library with the sample is opened. -/
def opening : WorkerEvent :=
  { normalize := id, loader := sampleLoader, files := {}, command := .add "M.dll" none }

/-- The store with the library. -/
def openedStore : Store := ((start none {}).run [opening]).store

theorem modules_openedStore : openedStore.modules =
    [{ archivePath := "M.dll", containerPath := none, code := sampleModule }] := by
  have hextension : Path.hasExtension "M.dll" ArchiveContents.moduleExtensions = true := by
    decide +kernel
  have hload : opening.source.load "M.dll" = .ok (.codeModule sampleModule) := by
    unfold ArchiveSource.load ArchiveContents.load
    rw [if_pos hextension]
    rfl
  have hstore : openedStore = (Store.add {} opening.source "M.dll" none).1 := store_publish _ _ _
  rw [hstore]
  simp only [Store.add, List.findFinIdx?_nil]
  rw [show opening.source.normalize "M.dll" = "M.dll" from rfl, hload]
  rfl

/-- The nodes under the inner type, where archives are not opened on behalf of others. -/
def underInner : Except Error (List Node) :=
  (openedStore.children { autoLoad := false } opening.source
    (.definition "M.dll" none .classType (TableId.typeDef.token 3) none)).2

/-- The groups of the type's relatives, its field and its users are found again. -/
theorem handed_out_addresses_resolve_sample :
    ∃ nodes, underInner = .ok nodes ∧
      nodes.map (·.displayName) = ["Base Types", "Derived Types", "f : object", "Used By"] ∧
        ∀ node ∈ nodes,
          openedStore.Resolves { autoLoad := false } opening.source node.address := by
  have hshown : underInner.toOption.any (fun nodes =>
      nodes.map (·.displayName) == ["Base Types", "Derived Types", "f : object", "Used By"] &&
        nodes.all fun node => !node.badges.includes .unresolved) = true := by
    decide +kernel
  have hfiles : ∀ archive ∈ openedStore.archives, archive.container?.isNone = true := by
    decide +kernel
  cases hnodes : underInner with
  | error error =>
      rw [hnodes] at hshown
      cases hshown
  | ok nodes =>
      rw [hnodes] at hshown
      simp only [Except.toOption, Option.any_some, Bool.and_eq_true, beq_iff_eq, List.all_eq_true,
        Bool.not_eq_true'] at hshown
      refine ⟨nodes, rfl, hshown.1, fun node hnode => ?_⟩
      refine handed_out_addresses_resolve none {} [opening] rfl opening.source ?_
        (.under hnodes hnode) (hshown.2 node hnode) ?_
      · intro place hplace
        have hsample := modules_openedStore ▸ hplace
        rw [List.mem_singleton.mp hsample]
        exact sampleModule_navigable
      · rintro ⟨archive, harchive, container, hcontainer, _⟩
        have hnone := hfiles archive harchive
        rw [hcontainer] at hnone
        cases hnone

end Worker

end AssemblyBrowser
