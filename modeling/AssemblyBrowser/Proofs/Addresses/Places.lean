import AssemblyBrowser.Browse.Children
import AssemblyBrowser.Proofs.SearchOrder
import AssemblyBrowser.Proofs.StoreInvariant

/-!
# Where addresses lead

The address of a module in the store leads back to that module, and so do the
addresses of the nodes that the module shows. Archives have different paths, so
no other archive stands in the way.

What an address leads to is in the store: an open archive, a module of one, a
folder of a container. Folders are searched for by their paths, outer ones
first, so that every folder under a root is found, or another one of its path.
-/

namespace AssemblyBrowser

/-!
## The way back
-/

namespace LoadedArchive

theorem place_of_mem_modules {archive : LoadedArchive} {place : PlacedModule}
    (h : place ∈ archive.modules) : archive.place place.containerPath = .ok place := by
  unfold modules at h
  split at h
  case h_1 => cases h
  case h_2 code hhandle =>
    rw [List.mem_singleton.mp h]
    unfold LoadedArchive.place codeModule
    rw [hhandle]
    rfl
  case h_3 container hhandle =>
    rcases List.mem_filterMap.mp h with ⟨entry, _, hplace⟩
    cases houtcome : archive.place (some entry.path) with
    | error error =>
        rw [houtcome] at hplace
        cases hplace
    | ok found =>
        rw [houtcome] at hplace
        cases hplace
        rcases Outcome.bind_eq_ok.mp houtcome with ⟨code, _, hfound⟩
        rw [← Outcome.pure_eq_ok.mp hfound] at houtcome ⊢
        exact houtcome

end LoadedArchive

namespace Store

variable {store : Store} {resolver : Resolver} {source : ArchiveSource} {place : PlacedModule}

/-- An archive is found under its own path. -/
theorem archiveOf_path (hpaths : store.paths.Nodup) {archive : LoadedArchive}
    (hmem : archive ∈ store.archives) : store.archiveOf source archive.path = .ok archive := by
  unfold archiveOf find?
  rw [at?_path hpaths hmem]
  rfl

/-- An address in a module of the store leads to that module. -/
theorem placeOf_eq (hpaths : store.paths.Nodup) (hplace : place ∈ store.modules)
    {address : NodeAddress} (harchive : address.archivePath = place.archivePath)
    (hcontainer : address.containerPath = place.containerPath) :
    store.placeOf source address = .ok place := by
  rcases List.mem_flatMap.mp hplace with ⟨archive, hmem, hmodule⟩
  unfold placeOf
  rw [harchive, hcontainer, LoadedArchive.archivePath_of_mem_modules hmodule,
    archiveOf_path hpaths hmem]
  exact LoadedArchive.place_of_mem_modules hmodule

/-- Modules of the store at the same place are the same. -/
theorem eq_of_paths (hpaths : store.paths.Nodup) (hplace : place ∈ store.modules)
    {other : PlacedModule} (hother : other ∈ store.modules)
    (harchive : place.archivePath = other.archivePath)
    (hcontainer : place.containerPath = other.containerPath) : place = other := by
  have hfound (place : PlacedModule) (hplace : place ∈ store.modules) :
      store.placeOf (.ofFiles .standard {}) (.assembly place.archivePath place.containerPath) =
        .ok place :=
    placeOf_eq hpaths hplace rfl rfl
  have hsame := hfound other hother
  rw [← harchive, ← hcontainer, hfound place hplace] at hsame
  exact Except.ok.inj hsame

theorem children_of_listing {address : NodeAddress} {nodes : List Node}
    (hkind : address.kind ≠ .baseTypesGroup) (h : store.listing source address = .ok nodes) :
    store.children resolver source address = (store, .ok nodes) := by
  unfold children
  rw [if_neg hkind, h]

theorem children_assembly (hpaths : store.paths.Nodup) (hplace : place ∈ store.modules) :
    store.children resolver source (.assembly place.archivePath place.containerPath) =
      (store, .ok place.children) := by
  refine children_of_listing (by simp [NodeAddress.assembly]) ?_
  simp only [listing, NodeAddress.assembly]
  rw [placeOf_eq hpaths hplace rfl rfl]
  rfl

theorem children_namespaceNode (hpaths : store.paths.Nodup) (hplace : place ∈ store.modules)
    (name : String) :
    store.children resolver source (place.namespaceNode name).address =
      (store, .ok (place.namespaceChildren name)) := by
  refine children_of_listing (by simp [PlacedModule.namespaceNode, NodeAddress.namespaceNode]) ?_
  simp only [listing, PlacedModule.namespaceNode, NodeAddress.namespaceNode]
  rw [placeOf_eq hpaths hplace rfl rfl]
  rfl

theorem children_typeNode (hpaths : store.paths.Nodup) (hplace : place ∈ store.modules)
    {type : TypeDefinition} (hfound : place.code.type? type.token = some type) :
    store.children resolver source (place.typeNode type).address =
      (store, .ok (place.typeChildren type)) := by
  have htype : typeOf place type.token = .ok { place, definition := type } := by
    unfold typeOf
    rw [hfound]
  have hlisting : store.listing source (place.typeNode type).address =
      (store.placeOf source (place.typeNode type).address >>= fun place =>
        typeOf place type.token >>= fun type =>
          .ok (type.place.typeChildren type.definition)) := by
    cases hkind : type.kind <;>
      simp only [listing, PlacedModule.typeNode, NodeAddress.definition, NodeKind.ofTypeKind,
        hkind] <;> rfl
  refine children_of_listing ?_ ?_
  · cases hkind : type.kind <;>
      simp [PlacedModule.typeNode, NodeAddress.definition, NodeKind.ofTypeKind, hkind]
  · rw [hlisting, placeOf_eq hpaths hplace rfl rfl, Outcome.ok_bind, htype]
    rfl

end Store

/-!
## Folders
-/

namespace Folder

mutual
/-- The folder that is found is the first one of its path. -/
theorem find?_eq (wanted : String) :
    ∀ root : Folder, find? wanted root = (all root).find? (·.path == wanted)
  | .node name path folders entries => by
      rw [find?, all, List.find?_cons, findIn?_eq wanted folders]
      show _ = match path == wanted with | true => _ | false => _
      by_cases hpath : path = wanted
      · rw [if_pos hpath, beq_iff_eq.mpr hpath]
      · rw [if_neg hpath, beq_eq_false_iff_ne.mpr hpath]

theorem findIn?_eq (wanted : String) :
    ∀ folders : List Folder, findIn? wanted folders = (allOf folders).find? (·.path == wanted)
  | [] => by rfl
  | folder :: rest => by
      rw [findIn?, allOf, List.find?_append, find?_eq wanted folder, findIn?_eq wanted rest]
      cases (all folder).find? (·.path == wanted) <;> rfl
end

theorem mem_all_of_find? {wanted : String} {root folder : Folder}
    (h : find? wanted root = some folder) : folder ∈ all root := by
  rw [find?_eq] at h
  exact List.mem_of_find?_eq_some h

theorem exists_find? {root folder : Folder} (h : folder ∈ all root) :
    ∃ found, find? folder.path root = some found := by
  rw [find?_eq]
  exact Option.isSome_iff_exists.mp (List.find?_isSome.mpr ⟨folder, h, beq_self_eq_true _⟩)

theorem mem_all_self (folder : Folder) : folder ∈ all folder := by
  cases folder
  rw [all]
  exact List.mem_cons_self

theorem allOf_eq (folders : List Folder) : allOf folders = folders.flatMap all := by
  induction folders with
  | nil => rfl
  | cons folder rest ih => rw [allOf, ih, List.flatMap_cons]

mutual
/-- A folder inside a folder under a root is under that root. -/
theorem mem_all_of_mem_folders {inner folder : Folder} (hinner : inner ∈ folder.folders) :
    ∀ root : Folder, folder ∈ all root → inner ∈ all root
  | .node name path folders entries, h => by
      rw [all] at h ⊢
      rcases List.mem_cons.mp h with rfl | hbelow
      · have hself : inner ∈ allOf folders := by
          rw [allOf_eq]
          exact List.mem_flatMap.mpr ⟨inner, hinner, mem_all_self inner⟩
        exact List.mem_cons_of_mem _ hself
      · exact List.mem_cons_of_mem _ (mem_allOf_of_mem_folders hinner folders hbelow)

theorem mem_allOf_of_mem_folders {inner folder : Folder} (hinner : inner ∈ folder.folders) :
    ∀ folders : List Folder, folder ∈ allOf folders → inner ∈ allOf folders
  | [], h => absurd h List.not_mem_nil
  | first :: rest, h => by
      rw [allOf] at h ⊢
      rcases List.mem_append.mp h with hfirst | hrest
      · exact List.mem_append_left _ (mem_all_of_mem_folders hinner first hfirst)
      · exact List.mem_append_right _ (mem_allOf_of_mem_folders hinner rest hrest)
end

end Folder

/-!
## Archives
-/

namespace LoadedArchive

variable {archive : LoadedArchive} {place : PlacedModule} {container : Container}

theorem handle_of_container? (h : archive.container? = some container) :
    archive.handle = some (.container container) := by
  unfold container? at h
  split at h
  case h_1 opened hhandle =>
    rw [hhandle, Option.some.inj h]
  case h_2 => cases h

/-- A well-formed archive holds one module or is a container of its own path. -/
theorem WellFormed.cases (h : archive.WellFormed) :
    (∃ code, archive.handle = some (.codeModule code)) ∨
      ∃ container, archive.container? = some container ∧
        container.archivePath = archive.path := by
  rcases Option.isSome_iff_exists.mp h.handle_isSome with ⟨contents, hhandle⟩
  cases contents with
  | codeModule code => exact .inl ⟨code, hhandle⟩
  | container container =>
      have hpath := h.standAt _ hhandle container rfl
      exact .inr ⟨container, by rw [container?, hhandle], hpath⟩

/-- The module of an entry is one of the modules of the archive. -/
theorem mem_modules_of_place {entry : Option String} (h : archive.place entry = .ok place) :
    place ∈ archive.modules := by
  rcases Outcome.bind_eq_ok.mp h with ⟨code, hcode, hplace⟩
  rw [Outcome.pure_eq_ok] at hplace
  unfold codeModule at hcode
  split at hcode
  case h_1 => cases hcode
  case h_2 own hhandle =>
    cases hcode
    rw [modules, hhandle, ← hplace]
    exact List.mem_singleton_self _
  case h_3 container path hhandle =>
    unfold Container.codeModule at hcode
    split at hcode
    case h_1 found hfound =>
      rcases Option.filter_eq_some_iff.mp hfound with ⟨hentry, hkind⟩
      have hpath : found.path = path := by simpa using List.find?_some hentry
      have hmem : found ∈ container.moduleEntries :=
        List.mem_filter.mpr ⟨List.mem_of_find?_eq_some hentry, hkind⟩
      rw [modules, hhandle]
      refine List.mem_filterMap.mpr ⟨found, hmem, ?_⟩
      rw [hpath, h]
      rfl
    case h_2 => cases hcode
  case h_4 => cases hcode
  case h_5 => cases hcode

theorem mem_modules_of_handle {code : CodeModule}
    (h : archive.handle = some (.codeModule code)) :
    { archivePath := archive.path, containerPath := none, code } ∈ archive.modules := by
  rw [modules, h]
  exact List.mem_singleton_self _

end LoadedArchive

/-!
## Addresses
-/

namespace Store

variable {store : Store} {source : ArchiveSource} {archive : LoadedArchive} {place : PlacedModule}
  {address : NodeAddress}

theorem mem_archives_of_find? {path : String} (h : store.find? source path = some archive) :
    archive ∈ store.archives := by
  cases hfound : store.at? path with
  | some found =>
      rw [find?, hfound] at h
      rw [← Option.some.inj h]
      exact List.mem_of_find?_eq_some hfound
  | none =>
      rw [find?, hfound] at h
      exact List.mem_of_find?_eq_some h

theorem mem_archives_of_archiveOf {path : String} (h : store.archiveOf source path = .ok archive) :
    archive ∈ store.archives := by
  unfold archiveOf at h
  split at h
  case h_1 found hfound =>
    rw [← Except.ok.inj h]
    exact mem_archives_of_find? hfound
  case h_2 => cases h

theorem mem_modules (harchive : archive ∈ store.archives) (hplace : place ∈ archive.modules) :
    place ∈ store.modules :=
  List.mem_flatMap.mpr ⟨archive, harchive, hplace⟩

/-- An address leads to modules of the store only. -/
theorem mem_modules_of_placeOf (h : store.placeOf source address = .ok place) :
    place ∈ store.modules := by
  rcases Outcome.bind_eq_ok.mp h with ⟨archive, harchive, hplace⟩
  exact mem_modules (mem_archives_of_archiveOf harchive) (LoadedArchive.mem_modules_of_place hplace)

theorem mem_archives_of_containerOf {container : Container}
    (h : store.containerOf source address = .ok container) :
    ∃ archive ∈ store.archives, archive.container? = some container := by
  rcases Outcome.bind_eq_ok.mp h with ⟨archive, harchive, hcontainer⟩
  refine ⟨archive, mem_archives_of_archiveOf harchive, ?_⟩
  split at hcontainer
  case h_1 found hfound => rw [hfound, Outcome.pure_eq_ok.mp hcontainer]
  case h_2 => cases hcontainer

theorem containerOf_eq (hpaths : store.paths.Nodup) (hmem : archive ∈ store.archives)
    {container : Container} (hcontainer : archive.container? = some container)
    (hpath : address.archivePath = archive.path) :
    store.containerOf source address = .ok container := by
  unfold containerOf
  rw [hpath, archiveOf_path hpaths hmem, Outcome.ok_bind, hcontainer]
  rfl

end Store

end AssemblyBrowser
