import AssemblyBrowser.Proofs.Browsing.Nodes
import AssemblyBrowser.Proofs.Containers.Folders

/-!
# Expanding a container

The nodes of a container are expanded by asking for what stands under its
folders, one inside the other. A folder is found again by the address that its
node has, so all that it holds turns up, and nothing turns up twice.
-/

namespace AssemblyBrowser

/-- Some items with sorted nodes stand in the order of the nodes. -/
theorem Node.exists_sortByName_map {α : Type} (node : α → Node) (items : List α) :
    ∃ again : List α, sortByName (items.map node) = again.map node ∧ again.Perm items := by
  refine ⟨items.mergeSort fun first second =>
    decide ((node first).displayName ≤ (node second).displayName), ?_, List.mergeSort_perm _ _⟩
  exact (List.map_mergeSort (f := node) fun _ _ _ _ => rfl).symm

namespace Store

variable {store : Store} {resolver : Resolver} {source : ArchiveSource}

/-- What turns up when the folders in a list of nodes are expanded as far as they go: the nodes
that are not folders. -/
inductive Expands (store : Store) (resolver : Resolver) (source : ArchiveSource) :
    List Node → List Node → Prop
  | nil : Expands store resolver source [] []
  | entry {node : Node} {rest beside : List Node}
      (hentry : node.address.kind ≠ .packageFolder)
      (hrest : Expands store resolver source rest beside) :
      Expands store resolver source (node :: rest) (node :: beside)
  | folder {node : Node} {rest children below beside : List Node}
      (hfolder : node.address.kind = .packageFolder)
      (hchildren : store.children resolver source node.address = (store, .ok children))
      (hbelow : Expands store resolver source children below)
      (hrest : Expands store resolver source rest beside) :
      Expands store resolver source (node :: rest) (below ++ beside)

namespace Expands

variable {nodes others reached : List Node}

theorem unique (h : Expands store resolver source nodes reached)
    (hothers : Expands store resolver source nodes others) : reached = others := by
  induction h generalizing others with
  | nil =>
      cases hothers
      rfl
  | entry hentry _ ih =>
      cases hothers with
      | entry _ hrest => rw [ih hrest]
      | folder hfolder => exact absurd hfolder hentry
  | folder hfolder hchildren _ _ ihBelow ihRest =>
      cases hothers with
      | entry hentry => exact absurd hfolder hentry
      | folder _ hagain hbelow hrest =>
          rw [hchildren] at hagain
          cases hagain
          rw [ihBelow hbelow, ihRest hrest]

theorem append {first second : List Node} (hnodes : Expands store resolver source nodes first)
    (hothers : Expands store resolver source others second) :
    Expands store resolver source (nodes ++ others) (first ++ second) := by
  induction hnodes with
  | nil => exact hothers
  | entry hentry _ ih => exact .entry hentry ih
  | folder hfolder hchildren hbelow _ _ ihRest =>
      rw [List.cons_append, List.append_assoc]
      exact .folder hfolder hchildren hbelow ihRest

theorem of_entries (h : ∀ node ∈ nodes, node.address.kind ≠ .packageFolder) :
    Expands store resolver source nodes nodes := by
  induction nodes with
  | nil => exact .nil
  | cons node rest ih =>
      rw [List.forall_mem_cons] at h
      exact .entry h.1 (ih h.2)

/-- Folders beside each other are expanded one after the other. -/
theorem of_folders {α : Type} {items : List α} {node : α → Node} {inside : α → List Node}
    (hkind : ∀ item ∈ items, (node item).address.kind = .packageFolder)
    (hbelow : ∀ item ∈ items, ∃ children below,
      store.children resolver source (node item).address = (store, .ok children) ∧
        Expands store resolver source children below ∧ below.Perm (inside item)) :
    ∃ reached, Expands store resolver source (items.map node) reached ∧
      reached.Perm (items.flatMap inside) := by
  induction items with
  | nil => exact ⟨[], .nil, .refl []⟩
  | cons item rest ih =>
      rw [List.forall_mem_cons] at hkind hbelow
      rcases hbelow.1 with ⟨children, below, hchildren, hexpands, hperm⟩
      rcases ih hkind.2 hbelow.2 with ⟨beside, hbeside, hrest⟩
      exact ⟨below ++ beside, .folder hkind.1 hchildren hexpands hbeside, hperm.append hrest⟩

end Expands
end Store

namespace Container

variable {store : Store} {resolver : Resolver} {source : ArchiveSource} {archive : LoadedArchive}
  {container : Container}

/-- The nodes of the entries of these numbers. -/
def entryNodes (container : Container) (indices : List Nat) : List Node :=
  (indices.filterMap (container.entries[·]?)).map container.entryNode

theorem kind_entryNode (container : Container) (entry : ContainerEntry) :
    (container.entryNode entry).address.kind ≠ .packageFolder := by
  unfold entryNode
  split <;> simp [NodeAddress.assembly, resourceNode, NodeAddress.resource]

theorem entryNodes_perm {indices others : List Nat} (h : indices.Perm others) :
    (container.entryNodes indices).Perm (container.entryNodes others) :=
  (h.filterMap _).map _

theorem entryNodes_append (indices others : List Nat) :
    container.entryNodes (indices ++ others) =
      container.entryNodes indices ++ container.entryNodes others := by
  rw [entryNodes, List.filterMap_append, List.map_append]
  rfl

theorem entryNodes_flatMap (folders : List Folder) (indices : Folder → List Nat) :
    container.entryNodes (folders.flatMap indices) =
      folders.flatMap fun folder => container.entryNodes (indices folder) := by
  rw [entryNodes, List.filterMap_flatMap, List.map_flatMap]
  rfl

theorem entryNodes_range (container : Container) :
    container.entryNodes (List.range container.entries.length) =
      container.entries.map container.entryNode := by
  have hentries : (List.range container.entries.length).map (container.entries[·]?) =
      container.entries.map some := by
    refine List.ext_getElem (by simp) fun index hindex _ => ?_
    simp at hindex
    simp [List.getElem?_eq_getElem hindex]
  have hfound := congrArg (List.filterMap id) hentries
  rw [List.filterMap_map, List.filterMap_map] at hfound
  rw [entryNodes]
  exact congrArg (List.map container.entryNode) (hfound.trans List.filterMap_some)

/-- The address of the node of an archive with a container leads to the root of the container. -/
theorem children_node (hstore : store.WellFormed) (harchive : archive ∈ store.archives)
    (hcontainer : archive.container? = some container) :
    store.children resolver source archive.node.address =
      (store, .ok (container.folderChildren container.root)) := by
  have haddress : archive.node.address = .package archive.path := by
    unfold LoadedArchive.node
    rw [hcontainer]
  rw [haddress]
  refine Store.children_of_listing (by simp [NodeAddress.package]) ?_
  simp only [Store.listing, NodeAddress.package]
  rw [Store.containerOf_eq hstore.paths_nodup harchive hcontainer rfl]
  rfl

/-- The address of a folder's node leads to the folder. -/
theorem children_folderNode (hstore : store.WellFormed) (harchive : archive ∈ store.archives)
    (hcontainer : archive.container? = some container) {folder : Folder}
    (hfolder : folder ∈ Folder.all container.root) :
    store.children resolver source (container.folderNode folder).address =
      (store, .ok (container.folderChildren folder)) := by
  have hpath : container.archivePath = archive.path :=
    (hstore.archive_wellFormed archive harchive).standAt _
      (LoadedArchive.handle_of_container? hcontainer) container rfl
  have hfound : container.folderOf (container.folderNode folder).address = .ok folder := by
    have hfind : (container.folderNode folder).address.containerPath.bind
        (Folder.find? · container.root) = some folder := Folder.find?_path hfolder
    unfold folderOf
    rw [if_neg (by simp [folderNode, NodeAddress.packageFolder]), hfind]
  have hlisting : store.listing source (container.folderNode folder).address =
      (store.containerOf source (container.folderNode folder).address >>= fun container' =>
        container'.folderOf (container.folderNode folder).address >>= fun folder' =>
          .ok (container'.folderChildren folder')) := rfl
  refine Store.children_of_listing (by simp [folderNode, NodeAddress.packageFolder]) ?_
  rw [hlisting, Store.containerOf_eq hstore.paths_nodup harchive hcontainer hpath,
    Outcome.ok_bind, hfound]
  rfl

mutual
/-- All entries of a folder and of the folders in it turn up, each as often as it is in one. -/
theorem expands_folderChildren (resolver : Resolver) (source : ArchiveSource)
    (hstore : store.WellFormed) (harchive : archive ∈ store.archives)
    (hcontainer : archive.container? = some container) :
    ∀ folder : Folder, (∀ inner ∈ Folder.all folder, inner ∈ Folder.all container.root) →
      ∃ reached, store.Expands resolver source (container.folderChildren folder) reached ∧
        reached.Perm (container.entryNodes ((Folder.all folder).flatMap Folder.entries))
  | .node name path folders entries, hall => by
      rw [Folder.all, List.forall_mem_cons] at hall
      have hfolders := expands_eachFolder resolver source hstore harchive hcontainer folders hall.2
      rcases Node.exists_sortByName_map container.folderNode folders with ⟨sorted, hsorted, hperm⟩
      rcases Store.Expands.of_folders (fun _ _ => rfl)
        fun folder hfolder => hfolders folder (hperm.subset hfolder) with
        ⟨reached, hreached, hbelow⟩
      have hentries : store.Expands resolver source
          (Node.sortByName (container.entryNodes entries))
          (Node.sortByName (container.entryNodes entries)) := by
        refine .of_entries fun node hnode => ?_
        rcases List.mem_map.mp ((Node.sortByName_perm _).subset hnode) with ⟨entry, _, rfl⟩
        exact kind_entryNode container entry
      refine ⟨reached ++ Node.sortByName (container.entryNodes entries), ?_, ?_⟩
      · show store.Expands resolver source (Node.sortByName (folders.map container.folderNode) ++ _) _
        rw [hsorted]
        exact hreached.append hentries
      · rw [Folder.all, List.flatMap_cons, entryNodes_append, Folder.allOf_eq, List.flatMap_assoc,
          entryNodes_flatMap]
        refine List.Perm.trans ?_ List.perm_append_comm
        exact (hbelow.trans (hperm.flatMap_right _)).append (Node.sortByName_perm _)

theorem expands_eachFolder (resolver : Resolver) (source : ArchiveSource)
    (hstore : store.WellFormed) (harchive : archive ∈ store.archives)
    (hcontainer : archive.container? = some container) :
    ∀ folders : List Folder, (∀ inner ∈ Folder.allOf folders, inner ∈ Folder.all container.root) →
      ∀ folder ∈ folders, ∃ children below,
        store.children resolver source (container.folderNode folder).address =
            (store, .ok children) ∧
          store.Expands resolver source children below ∧
            below.Perm (container.entryNodes ((Folder.all folder).flatMap Folder.entries))
  | [], _ => fun _ hfolder => absurd hfolder List.not_mem_nil
  | first :: rest, hall => by
      rw [Folder.allOf, List.forall_mem_append] at hall
      rw [List.forall_mem_cons]
      constructor
      · rcases expands_folderChildren resolver source hstore harchive hcontainer first hall.1 with
          ⟨below, hexpands, hbelow⟩
        have hfirst := hall.1 first (Folder.mem_all_self first)
        exact ⟨_, below, children_folderNode hstore harchive hcontainer hfirst, hexpands, hbelow⟩
      · exact expands_eachFolder resolver source hstore harchive hcontainer rest hall.2
end

/-- Everything under the node of an archive with a container is expanded to the entries of the
container. -/
theorem exists_expansion (resolver : Resolver) (source : ArchiveSource)
    (hstore : store.WellFormed) (harchive : archive ∈ store.archives)
    (hcontainer : archive.container? = some container) :
    ∃ children reached,
      store.children resolver source archive.node.address = (store, .ok children) ∧
        store.Expands resolver source children reached ∧
          reached.Perm (container.entries.map container.entryNode) := by
  rcases expands_folderChildren resolver source hstore harchive hcontainer container.root
    fun _ h => h with ⟨reached, hreached, hperm⟩
  refine ⟨_, reached, children_node hstore harchive hcontainer, hreached, ?_⟩
  rw [← entryNodes_range]
  exact hperm.trans (entryNodes_perm (Folder.entries_perm container.entries))

/-- Whatever the entries of a container are, each is in one folder, the one that its path names;
the folders have different paths, and each is found by its path; no folder in the root holds
nothing but one other folder; and whoever expands all folders of an archive with such a container
sees each entry once. -/
theorem folders_show_each_entry_once (entries : List ContainerEntry) :
    let root := Folder.ofEntries entries
    (∀ (index : Nat) (h : index < entries.length), ∃ folder ∈ root.all,
      folder.path = String.intercalate "/"
          ((Path.split (· == '/') entries[index].path).filter (!·.isEmpty)).dropLast ∧
        folder.entries.count index = 1 ∧
          ∀ other ∈ root.all, index ∈ other.entries → other = folder) ∧
    (∀ folder ∈ root.all, ∀ index ∈ folder.entries, index < entries.length) ∧
    (root.all.map Folder.path).Nodup ∧
    (∀ folder ∈ root.all, root.find? folder.path = some folder) ∧
    (∀ folder ∈ Folder.allOf root.folders,
      ¬(folder.entries = [] ∧ folder.folders.length = 1)) ∧
    ∀ (store : Store) (resolver : Resolver) (source : ArchiveSource) (archive : LoadedArchive)
      (container : Container), store.WellFormed → archive ∈ store.archives →
        archive.container? = some container → container.entries = entries →
          ∃ children reached,
            store.children resolver source archive.node.address = (store, .ok children) ∧
              store.Expands resolver source children reached ∧
                (∀ others, store.Expands resolver source children others → others = reached) ∧
                  reached.Perm (entries.map container.entryNode) := by
  intro root
  refine ⟨fun index h => Folder.exists_of_index h, ?_, Folder.nodup_paths entries,
    fun folder hfolder => Folder.find?_path hfolder, fun folder hfolder =>
      Folder.not_single hfolder, ?_⟩
  · intro folder hfolder index hindex
    rcases Folder.path_of_mem_entries hfolder hindex with ⟨hlt, _⟩
    exact hlt
  · rintro store resolver source archive container hstore harchive hcontainer rfl
    rcases exists_expansion resolver source hstore harchive hcontainer with
      ⟨children, reached, hchildren, hreached, hperm⟩
    exact ⟨children, reached, hchildren, hreached, fun others hothers => hothers.unique hreached,
      hperm⟩

def sampleEntry (name path : String) : ContainerEntry :=
  { name, path, length := none, compressedLength := 0, offset := 0, compression := .stored,
    kind := .resource }

/-- A container with two entries of one path, and one that goes by the name of a folder. -/
def sampleContainer : Container :=
  { archivePath := "/p.zip"
    format := .package
    entries := [sampleEntry "a" "lib/net//a", sampleEntry "lib" "/lib", sampleEntry "a" "lib/net//a"]
    readModule _ := .error .invalidJson }

def sampleArchive : LoadedArchive :=
  (LoadedArchive.unopened "/p.zip" none).withHandle (.container sampleContainer)

def sampleStore : Store := { archives := [sampleArchive] }

theorem sampleStore_wellFormed : sampleStore.WellFormed := by
  constructor
  · exact List.nodup_singleton _
  · intro archive harchive
    rw [List.mem_singleton.mp harchive]
    exact LoadedArchive.opened_wellFormed none (ArchiveContents.container_standAt rfl)

/-- The folder holds both entries of its path, and everything is seen. -/
theorem folders_show_each_entry_once_sample :
    (∃ folder ∈ sampleContainer.root.all, folder.path = "lib/net" ∧
      folder.entries.count 0 = 1 ∧ folder.entries.count 2 = 1) ∧
    ∃ children reached,
      sampleStore.children {} (.ofFiles .standard {}) sampleArchive.node.address =
          (sampleStore, .ok children) ∧
        sampleStore.Expands {} (.ofFiles .standard {}) children reached ∧
          reached.Perm (sampleContainer.entries.map sampleContainer.entryNode) := by
  rcases folders_show_each_entry_once sampleContainer.entries with
    ⟨hplaces, _, hdistinct, _, _, hexpands⟩
  constructor
  · have hpath : String.intercalate "/"
        ((Path.split (· == '/') "lib/net//a").filter (!·.isEmpty)).dropLast = "lib/net" := by
      decide +kernel
    rcases hplaces 0 (by decide) with ⟨folder, hfolder, hfirst, hcount, _⟩
    rcases hplaces 2 (by decide) with ⟨other, hother, hsecond, hagain, _⟩
    have hsame : folder = other :=
      List.inj_on_of_nodup_map hdistinct hfolder hother (hfirst.trans hsecond.symm)
    exact ⟨folder, hfolder, hfirst.trans hpath, hcount, hsame ▸ hagain⟩
  · rcases hexpands sampleStore {} (.ofFiles .standard {}) sampleArchive sampleContainer
      sampleStore_wellFormed (List.mem_singleton_self _) rfl rfl with
      ⟨children, reached, hchildren, hreached, _, hperm⟩
    exact ⟨children, reached, hchildren, hreached, hperm⟩

end Container
end AssemblyBrowser
