import Mathlib.Data.List.Pairwise
import Mathlib.Data.List.Perm.Basic
import AssemblyBrowser.Proofs.Addresses.Places
import AssemblyBrowser.Proofs.Containers.Drafts

/-!
# The folders of a container

The folders of a container are the drafts that do not stand for a single folder,
and the path of each joins the names that lead to it. So the entries are where
their paths say, and a folder is found by its path.
-/

namespace AssemblyBrowser.Folder

/-!
## Paths
-/

theorem intercalate_concat {names : List String} (hne : names ≠ []) (name : String) :
    String.intercalate "/" (names ++ [name]) = String.intercalate "/" names ++ "/" ++ name := by
  induction names with
  | nil => exact absurd rfl hne
  | cons first rest ih =>
      cases rest with
      | nil => rw [List.singleton_append, String.intercalate_cons_cons,
          String.intercalate_singleton, String.intercalate_singleton]
      | cons next others =>
          rw [List.cons_append, List.cons_append, String.intercalate_cons_cons,
            ← List.cons_append, ih (by simp), String.intercalate_cons_cons]
          simp only [String.append_assoc]

theorem segments_intercalate {names : List String} (hne : names ≠ [])
    (h : ∀ name ∈ names, IsSegment name) :
    FileSystem.segments (String.intercalate "/" names) = names :=
  FileSystem.segments_intercalate hne fun name hname => (h name hname).noSlash

theorem intercalate_ne_empty {names : List String} (hne : names ≠ [])
    (h : ∀ name ∈ names, IsSegment name) : String.intercalate "/" names ≠ "" := by
  intro hempty
  have hsegments := segments_intercalate hne h
  rw [hempty, FileSystem.segments_empty] at hsegments
  rw [← hsegments] at h
  exact (h "" List.mem_cons_self).nonempty rfl

/-- Joining names that can be segments loses nothing. -/
theorem intercalate_injective {names others : List String} (h : ∀ name ∈ names, IsSegment name)
    (hothers : ∀ name ∈ others, IsSegment name)
    (hsame : String.intercalate "/" names = String.intercalate "/" others) : names = others := by
  by_cases hnames : names = []
  · subst hnames
    by_contra hne
    exact intercalate_ne_empty (Ne.symm hne) hothers hsame.symm
  · by_cases hnone : others = []
    · subst hnone
      exact absurd hsame (intercalate_ne_empty hnames h)
    · rw [← segments_intercalate hnames h, hsame, segments_intercalate hnone hothers]

theorem path_inside {above : List String} (h : ∀ name ∈ above, IsSegment name) (name : String) :
    (if (String.intercalate "/" above).isEmpty then name
      else String.intercalate "/" above ++ "/" ++ name) =
        String.intercalate "/" (above ++ [name]) := by
  by_cases hne : above = []
  · subst hne
    rw [if_pos (by rfl), List.nil_append, String.intercalate_singleton]
  · have hempty := String.isEmpty_eq_false_iff.mpr (intercalate_ne_empty hne h)
    rw [hempty, if_neg Bool.false_ne_true, intercalate_concat hne]

/-!
## Folders and drafts
-/

/-- Whether a draft is shown as a folder of its own, and not as part of the one inside it. -/
def isShown (draft : FolderDraft) : Bool := !(draft.entries.isEmpty && draft.folders.length == 1)

/-- What is said here of a folder: its path, its entries, and how many folders are in it. -/
def outline (folder : Folder) : String × List Nat × Nat :=
  (folder.path, folder.entries, folder.folders.length)

/-- The outline of the folder of a draft that the names lead to. -/
def outlineOf (names : Array String) (inner : List String × FolderDraft) : String × List Nat × Nat :=
  (String.intercalate "/" inner.1, sortEntries names inner.2.entries, inner.2.folders.length)

theorem length_ofDrafts (names : Array String) (path : String)
    (drafts : List (String × FolderDraft)) :
    (ofDrafts names path drafts).length = drafts.length := by
  induction drafts with
  | nil => rfl
  | cons draft rest ih => rw [ofDrafts, List.length_cons, List.length_cons, ih]

/-- The drafts of a list that are shown, each with the names that lead to it from the root. -/
def shownBelow (above : List String) (drafts : List (List String × FolderDraft)) :
    List (List String × FolderDraft) :=
  (drafts.filter fun inner => isShown inner.2).map (Prod.map (above ++ ·) id)

theorem shownBelow_append (above : List String) (first second : List (List String × FolderDraft)) :
    shownBelow above (first ++ second) = shownBelow above first ++ shownBelow above second := by
  unfold shownBelow
  rw [List.filter_append, List.map_append]

theorem shownBelow_cons {draft : FolderDraft} (h : isShown draft = true) (above : List String)
    (rest : List (List String × FolderDraft)) :
    shownBelow above (([], draft) :: rest) = (above, draft) :: shownBelow above rest := by
  unfold shownBelow
  rw [List.filter_cons, if_pos h, List.map_cons]
  simp [Prod.map]

theorem shownBelow_below (above : List String) (name : String)
    (drafts : List (List String × FolderDraft)) :
    shownBelow above (drafts.map (Prod.map (name :: ·) id)) = shownBelow (above ++ [name]) drafts := by
  unfold shownBelow
  rw [List.filter_map, List.map_map]
  refine List.map_congr_left fun inner _ => ?_
  simp [Prod.map]

theorem isShown_of_joins {folders : List (String × FolderDraft)} {entries : List Nat}
    (h : ∀ name draft, folders = [(name, draft)] → entries = [] → False) :
    isShown (.node folders entries) = true := by
  unfold isShown
  rw [Bool.not_eq_true', Bool.and_eq_false_iff]
  cases entries with
  | cons => exact .inl rfl
  | nil =>
      refine .inr (beq_eq_false_iff_ne.mpr fun hlength => ?_)
      rcases List.length_eq_one_iff.mp hlength with ⟨⟨name, draft⟩, hfolders⟩
      exact h name draft hfolders rfl

/-- The folders that come of drafts are the drafts in them that are shown. -/
theorem outlines_ofDrafts (names : Array String) (drafts : List (String × FolderDraft))
    (horderly : ∀ draft ∈ drafts, IsSegment draft.1 ∧ draft.2.Orderly) {above : List String}
    (habove : ∀ name ∈ above, IsSegment name) :
    (allOf (ofDrafts names (String.intercalate "/" above) drafts)).map outline =
      (shownBelow above (FolderDraft.withinOf drafts)).map (outlineOf names) := by
  have hmotive : ∀ path drafts, (∀ draft ∈ drafts, IsSegment draft.1 ∧ draft.2.Orderly) →
      ∀ above, (∀ name ∈ above, IsSegment name) → path = String.intercalate "/" above →
        (allOf (ofDrafts names path drafts)).map outline =
          (shownBelow above (FolderDraft.withinOf drafts)).map (outlineOf names) := by
    refine ofDrafts.induct
      (fun name path draft => draft.Orderly → ∀ above, above ≠ [] →
        (∀ name ∈ above, IsSegment name) → path = String.intercalate "/" above →
          (all (ofDraft names name path draft)).map outline =
            (shownBelow above draft.within).map (outlineOf names)) _ ?_ ?_ ?_ ?_
    · intro name path childName child ih horderly above hne habove hpath
      cases horderly with
      | node hordered hnames hinside =>
          have hchild : IsSegment childName := hnames _ List.mem_cons_self
          have hbelow : ∀ name ∈ above ++ [childName], IsSegment name :=
            List.forall_mem_append.mpr ⟨habove, by simpa using hchild⟩
          rw [ofDraft, ih (hinside _ List.mem_cons_self) (above ++ [childName]) (by simp) hbelow
            (by rw [hpath, intercalate_concat hne]), FolderDraft.within, FolderDraft.withinOf,
            FolderDraft.withinOf, List.append_nil, ← shownBelow_below]
          rfl
    · intro name path folders entries hjoins ih horderly above hne habove hpath
      cases horderly with
      | node hordered hnames hinside =>
          have hbelow := ih (fun draft hdraft => ⟨hnames draft hdraft, hinside draft hdraft⟩)
            above habove hpath
          rw [ofDraft.eq_2 names name path folders entries hjoins, all, List.map_cons, hbelow,
            FolderDraft.within, shownBelow_cons (isShown_of_joins hjoins), List.map_cons]
          simp [outline, outlineOf, Folder.path, Folder.entries, Folder.folders, length_ofDrafts,
            hpath, FolderDraft.entries, FolderDraft.folders]
    · intro path _ above _ _
      rfl
    · intro path name draft rest ihDraft ihRest horderly above habove hpath
      rw [List.forall_mem_cons] at horderly
      have hbelow : ∀ name' ∈ above ++ [name], IsSegment name' :=
        List.forall_mem_append.mpr ⟨habove, by simpa using horderly.1.1⟩
      rw [ofDrafts, allOf, List.map_append, ihRest horderly.2 above habove hpath,
        ihDraft horderly.1.2 (above ++ [name]) (by simp) hbelow
          (by rw [hpath, path_inside habove]), FolderDraft.withinOf, shownBelow_append,
        List.map_append, shownBelow_below]
  exact hmotive _ drafts horderly above habove rfl

/-- The drafts that are folders of the container: the root, and all others that are shown. -/
def shownIn (draft : FolderDraft) : List (List String × FolderDraft) :=
  ([], draft) :: shownBelow [] (FolderDraft.withinOf draft.folders)

theorem outlines_ofEntries (entries : List ContainerEntry) :
    (all (ofEntries entries)).map outline =
      (shownIn (draftOf entries)).map (outlineOf (entries.map ContainerEntry.name).toArray) := by
  have horderly := FolderDraft.orderly_draftOf entries
  unfold ofEntries
  generalize draftOf entries = draft at horderly
  cases horderly with
  | @node folders direct hordered hnames hinside =>
      have hroot : ∀ name ∈ ([] : List String), IsSegment name :=
        fun _ hname => absurd hname List.not_mem_nil
      have hbelow := outlines_ofDrafts (entries.map ContainerEntry.name).toArray folders
        (fun draft hdraft => ⟨hnames draft hdraft, hinside draft hdraft⟩) hroot
      show (all (.node "" "" (ofDrafts _ "" folders) _)).map outline = _
      rw [all, List.map_cons, shownIn, List.map_cons]
      congr 1
      simp [outline, outlineOf, Folder.path, Folder.entries, Folder.folders, length_ofDrafts,
        FolderDraft.entries, FolderDraft.folders]

/-!
## What the folders hold
-/

theorem shownIn_sublist (draft : FolderDraft) : (shownIn draft).Sublist draft.within := by
  rw [FolderDraft.within_eq]
  refine List.Sublist.cons_cons _ ?_
  have hsame : shownBelow [] (FolderDraft.withinOf draft.folders) =
      (FolderDraft.withinOf draft.folders).filter fun inner => isShown inner.2 := by
    unfold shownBelow
    exact List.map_id _
  rw [hsame]
  exact List.filter_sublist

theorem all_eq (folder : Folder) : all folder = folder :: allOf folder.folders := by
  cases folder
  rw [all]
  rfl

theorem isShown_iff {draft : FolderDraft} :
    isShown draft = true ↔ ¬(draft.entries = [] ∧ draft.folders.length = 1) := by
  rw [isShown, Bool.not_eq_true', Bool.and_eq_false_iff, not_and_or]
  simp

/-- Drafts that are not shown hold no entries themselves. -/
theorem placed_shownIn (draft : FolderDraft) :
    FolderDraft.placed (shownIn draft) = FolderDraft.placed draft.within := by
  have hshown (drafts : List (List String × FolderDraft)) :
      FolderDraft.placed (shownBelow [] drafts) = FolderDraft.placed drafts := by
    induction drafts with
    | nil => rfl
    | cons inner rest ih =>
        rcases inner with ⟨names, inner⟩
        rw [FolderDraft.placed_cons, ← ih]
        cases hshown : isShown inner with
        | true =>
            have hcons : shownBelow [] ((names, inner) :: rest) =
                (names, inner) :: shownBelow [] rest := by
              simp [shownBelow, hshown]
            rw [hcons, FolderDraft.placed_cons]
        | false =>
            have hcons : shownBelow [] ((names, inner) :: rest) = shownBelow [] rest := by
              simp [shownBelow, hshown]
            have hempty : inner.entries = [] := by
              by_contra hne
              rw [isShown_iff.mpr fun hsingle => hne hsingle.1] at hshown
              cases hshown
            rw [hcons, hempty]
            rfl
  rw [shownIn, FolderDraft.placed_cons, hshown, FolderDraft.within_eq, FolderDraft.placed_cons]

theorem sortEntries_perm (names : Array String) (entries : List Nat) :
    (sortEntries names entries).Perm entries := List.mergeSort_perm _ _

/-- The entries of a container stand in its folders, each once, where their paths say. -/
theorem placements_ofEntries (entries : List ContainerEntry) :
    ((all (ofEntries entries)).flatMap fun folder =>
        folder.entries.map fun index => (folder.path, index)).Perm
      (entries.zipIdx.map fun entry =>
        (String.intercalate "/" (folderSegments entry.1.path), entry.2)) := by
  have houtlines : ((all (ofEntries entries)).flatMap fun folder =>
      folder.entries.map fun index => (folder.path, index)) =
        (shownIn (draftOf entries)).flatMap fun inner =>
          (sortEntries (entries.map ContainerEntry.name).toArray inner.2.entries).map
            fun index => (String.intercalate "/" inner.1, index) := by
    have hflat := congrArg
      (List.flatMap fun shape : String × List Nat × Nat =>
        shape.2.1.map fun index => (shape.1, index)) (outlines_ofEntries entries)
    rw [List.flatMap_map, List.flatMap_map] at hflat
    exact hflat
  have hplaced : ((shownIn (draftOf entries)).flatMap fun inner =>
      inner.2.entries.map fun index => (String.intercalate "/" inner.1, index)) =
        (FolderDraft.placed (draftOf entries).within).map
          (Prod.map (String.intercalate "/") id) := by
    rw [← placed_shownIn, FolderDraft.placed, List.map_flatMap]
    simp only [List.map_map]
    rfl
  rw [houtlines]
  refine (List.Perm.flatMap_left _ fun inner _ => (sortEntries_perm _ _).map _).trans ?_
  rw [hplaced]
  refine ((FolderDraft.placed_draftOf entries).map _).trans ?_
  rw [List.map_map]
  exact .refl _

theorem nodup_paths (entries : List ContainerEntry) :
    ((all (ofEntries entries)).map path).Nodup := by
  have horderly := FolderDraft.orderly_draftOf entries
  have hsublist := shownIn_sublist (draftOf entries)
  have hpaths : (all (ofEntries entries)).map path =
      ((shownIn (draftOf entries)).map (·.1)).map (String.intercalate "/") := by
    have houtlines := congrArg (List.map (·.1)) (outlines_ofEntries entries)
    rw [List.map_map, List.map_map] at houtlines
    rw [List.map_map]
    exact houtlines
  rw [hpaths]
  refine List.Nodup.map_on ?_ ((hsublist.map (·.1)).nodup horderly.nodup_within)
  intro names hnames others hothers hsame
  rcases List.mem_map.mp hnames with ⟨inner, hinner, rfl⟩
  rcases List.mem_map.mp hothers with ⟨other, hother, rfl⟩
  exact intercalate_injective (horderly.isSegment (hsublist.subset hinner))
    (horderly.isSegment (hsublist.subset hother)) hsame

/-- Each folder is found by its path. -/
theorem find?_path {entries : List ContainerEntry} {folder : Folder}
    (h : folder ∈ all (ofEntries entries)) :
    find? folder.path (ofEntries entries) = some folder := by
  rcases exists_find? h with ⟨found, hfound⟩
  have hpath : found.path = folder.path := by
    rw [find?_eq] at hfound
    exact eq_of_beq (List.find?_some hfound :)
  rw [hfound, List.inj_on_of_nodup_map (nodup_paths entries) (mem_all_of_find? hfound) h hpath]

/-- A folder in the root is not one that could be shown together with a folder inside it. -/
theorem not_single {entries : List ContainerEntry} {folder : Folder}
    (h : folder ∈ allOf (ofEntries entries).folders) :
    ¬(folder.entries = [] ∧ folder.folders.length = 1) := by
  have houtlines := outlines_ofEntries entries
  rw [all_eq, shownIn, List.map_cons, List.map_cons] at houtlines
  have hmem : outline folder ∈ (allOf (ofEntries entries).folders).map outline :=
    List.mem_map_of_mem h
  rw [(List.cons.inj houtlines).2] at hmem
  rcases List.mem_map.mp hmem with ⟨inner, hinner, houtline⟩
  rcases List.mem_map.mp hinner with ⟨draft, hdraft, rfl⟩
  have hshown := isShown_iff.mp (List.mem_filter.mp hdraft).2
  rintro ⟨hentries, hfolders⟩
  have hempty : sortEntries (entries.map ContainerEntry.name).toArray draft.2.entries = [] :=
    (congrArg (·.2.1) houtline).trans hentries
  have hlength : draft.2.folders.length = 1 := (congrArg (·.2.2) houtline).trans hfolders
  refine hshown ⟨?_, hlength⟩
  have hperm := sortEntries_perm (entries.map ContainerEntry.name).toArray draft.2.entries
  rw [hempty] at hperm
  exact hperm.nil_eq.symm

/-- The numbers of the entries, as they stand in the folders. -/
theorem entries_perm (entries : List ContainerEntry) :
    ((all (ofEntries entries)).flatMap Folder.entries).Perm (List.range entries.length) := by
  have hnumbers := (placements_ofEntries entries).map (·.2)
  rw [List.map_flatMap, List.map_map] at hnumbers
  simp only [List.map_map] at hnumbers
  have hrange : entries.zipIdx.map (·.2) = List.range entries.length := by
    rw [List.zipIdx_map_snd, ← List.range_eq_range']
  rw [← hrange]
  simpa [Function.comp_def] using hnumbers

theorem nodup_entries {entries : List ContainerEntry} {folder : Folder}
    (h : folder ∈ all (ofEntries entries)) : folder.entries.Nodup :=
  (List.nodup_flatMap.mp ((entries_perm entries).nodup_iff.mpr List.nodup_range)).1 folder h

theorem path_of_mem_entries {entries : List ContainerEntry} {folder : Folder}
    (hfolder : folder ∈ all (ofEntries entries)) {index : Nat} (hindex : index ∈ folder.entries) :
    ∃ h : index < entries.length,
      folder.path = String.intercalate "/" (folderSegments entries[index].path) := by
  have hplaced : (folder.path, index) ∈ entries.zipIdx.map fun entry =>
      (String.intercalate "/" (folderSegments entry.1.path), entry.2) :=
    (placements_ofEntries entries).subset
      (List.mem_flatMap.mpr ⟨folder, hfolder, List.mem_map_of_mem hindex⟩)
  rcases List.mem_map.mp hplaced with ⟨⟨entry, number⟩, hentry, hsame⟩
  rcases Prod.mk.inj hsame with ⟨hpath, rfl⟩
  have hat := List.mem_zipIdx_iff_getElem?.mp hentry
  rcases List.getElem?_eq_some_iff.mp hat with ⟨hlt, hget⟩
  exact ⟨hlt, by rw [hget, ← hpath]⟩

theorem exists_of_index {entries : List ContainerEntry} {index : Nat}
    (h : index < entries.length) :
    ∃ folder ∈ all (ofEntries entries),
      folder.path = String.intercalate "/" (folderSegments entries[index].path) ∧
        folder.entries.count index = 1 ∧
          ∀ other ∈ all (ofEntries entries), index ∈ other.entries → other = folder := by
  have hmem : index ∈ (all (ofEntries entries)).flatMap Folder.entries :=
    (entries_perm entries).mem_iff.mpr (List.mem_range.mpr h)
  rcases List.mem_flatMap.mp hmem with ⟨folder, hfolder, hindex⟩
  rcases path_of_mem_entries hfolder hindex with ⟨_, hpath⟩
  refine ⟨folder, hfolder, hpath, List.count_eq_one_of_mem (nodup_entries hfolder) hindex, ?_⟩
  intro other hother hin
  rcases path_of_mem_entries hother hin with ⟨_, hsame⟩
  exact List.inj_on_of_nodup_map (nodup_paths entries) hother hfolder (hsame.trans hpath.symm)

/-!
## Folders in folders
-/

theorem sizeOf_lt_of_mem_folders {inner folder : Folder} (h : inner ∈ folder.folders) :
    sizeOf inner < sizeOf folder := by
  cases folder with
  | node name path folders entries =>
      have hlt := List.sizeOf_lt_of_mem (show inner ∈ folders from h)
      simp only [node.sizeOf_spec]
      omega

mutual
theorem sizeOf_le_of_mem_all {folder : Folder} :
    ∀ root : Folder, folder ∈ all root → sizeOf folder ≤ sizeOf root
  | .node name path folders entries, h => by
      rw [all] at h
      rcases List.mem_cons.mp h with rfl | hbelow
      · exact Nat.le_refl _
      · have hlt := sizeOf_lt_of_mem_allOf folders hbelow
        simp only [node.sizeOf_spec]
        omega

theorem sizeOf_lt_of_mem_allOf {folder : Folder} :
    ∀ folders : List Folder, folder ∈ allOf folders → sizeOf folder < sizeOf folders
  | [], h => absurd h List.not_mem_nil
  | first :: rest, h => by
      rw [allOf] at h
      rw [List.cons.sizeOf_spec]
      rcases List.mem_append.mp h with hfirst | hrest
      · have hle := sizeOf_le_of_mem_all first hfirst
        omega
      · have hlt := sizeOf_lt_of_mem_allOf rest hrest
        omega
end

/-- Where no folder stands twice, it stands under one folder of a list at most. -/
theorem eq_of_mem_all {folders : List Folder} (h : (allOf folders).Nodup) {first second : Folder}
    (hfirst : first ∈ folders) (hsecond : second ∈ folders) {folder : Folder}
    (hunder : folder ∈ all first) (hagain : folder ∈ all second) : first = second := by
  rw [allOf_eq, List.nodup_flatMap] at h
  have hsymm : Std.Symm (Function.onFun List.Disjoint all) :=
    ⟨fun _ _ hapart _ hin hout => hapart hout hin⟩
  by_contra hne
  exact h.2.forall hfirst hsecond hne hunder hagain

theorem not_mem_folders_of_mem_allOf {folders : List Folder} (h : (allOf folders).Nodup)
    {inner other : Folder} (hinner : inner ∈ folders) (hother : other ∈ allOf folders) :
    inner ∉ other.folders := by
  intro hinside
  rw [allOf_eq] at hother
  rcases List.mem_flatMap.mp hother with ⟨first, hfirst, hunder⟩
  have hsame := eq_of_mem_all h hinner hfirst (mem_all_self inner)
    (mem_all_of_mem_folders hinside first hunder)
  rw [← hsame] at hunder
  have hle := sizeOf_le_of_mem_all inner hunder
  have hlt := sizeOf_lt_of_mem_folders hinside
  omega

mutual
/-- Where no folder stands twice, it stands in one folder. -/
theorem eq_of_mem_folders {inner outer other : Folder} (houter : inner ∈ outer.folders)
    (hother : inner ∈ other.folders) : ∀ root : Folder, (all root).Nodup → outer ∈ all root →
      other ∈ all root → outer = other
  | .node name path folders entries, hnodup, hmem, hagain => by
      rw [all] at hnodup hmem hagain
      have hbelow := (List.nodup_cons.mp hnodup).2
      rcases List.mem_cons.mp hmem with rfl | hmem
      · rcases List.mem_cons.mp hagain with rfl | hagain
        · rfl
        · exact absurd hother (not_mem_folders_of_mem_allOf hbelow houter hagain)
      · rcases List.mem_cons.mp hagain with rfl | hagain
        · exact absurd houter (not_mem_folders_of_mem_allOf hbelow hother hmem)
        · exact eq_of_mem_folders_of_allOf houter hother folders hbelow hmem hagain

theorem eq_of_mem_folders_of_allOf {inner outer other : Folder} (houter : inner ∈ outer.folders)
    (hother : inner ∈ other.folders) : ∀ folders : List Folder, (allOf folders).Nodup →
      outer ∈ allOf folders → other ∈ allOf folders → outer = other
  | [], _, hmem, _ => absurd hmem List.not_mem_nil
  | first :: rest, hnodup, hmem, hagain => by
      rw [allOf] at hnodup hmem hagain
      obtain ⟨hfirst, hrest, hapart⟩ := List.nodup_append.mp hnodup
      have hin {folder : Folder} (hinside : inner ∈ folder.folders) (hunder : folder ∈ all first) :
          inner ∈ all first := mem_all_of_mem_folders hinside first hunder
      have hbeside {folder : Folder} (hinside : inner ∈ folder.folders)
          (hunder : folder ∈ allOf rest) : inner ∈ allOf rest :=
        mem_allOf_of_mem_folders hinside rest hunder
      rcases List.mem_append.mp hmem with hmem | hmem
      · rcases List.mem_append.mp hagain with hagain | hagain
        · exact eq_of_mem_folders houter hother first hfirst hmem hagain
        · exact absurd rfl (hapart inner (hin houter hmem) inner (hbeside hother hagain))
      · rcases List.mem_append.mp hagain with hagain | hagain
        · exact absurd rfl (hapart inner (hin hother hagain) inner (hbeside houter hmem))
        · exact eq_of_mem_folders_of_allOf houter hother rest hrest hmem hagain
end

mutual
theorem nodup_all {folder : Folder} :
    ∀ root : Folder, (all root).Nodup → folder ∈ all root → (all folder).Nodup
  | .node name path folders entries, hnodup, hmem => by
      rw [all] at hnodup hmem
      rcases List.mem_cons.mp hmem with rfl | hbelow
      · rw [all]
        exact hnodup
      · exact nodup_all_of_allOf folders (List.nodup_cons.mp hnodup).2 hbelow

theorem nodup_all_of_allOf {folder : Folder} :
    ∀ folders : List Folder, (allOf folders).Nodup → folder ∈ allOf folders → (all folder).Nodup
  | [], _, hmem => absurd hmem List.not_mem_nil
  | first :: rest, hnodup, hmem => by
      rw [allOf] at hnodup hmem
      obtain ⟨hfirst, hrest, -⟩ := List.nodup_append.mp hnodup
      rcases List.mem_append.mp hmem with hmem | hmem
      · exact nodup_all first hfirst hmem
      · exact nodup_all_of_allOf rest hrest hmem
end

theorem sublist_allOf (folders : List Folder) : folders.Sublist (allOf folders) := by
  induction folders with
  | nil => exact .slnil
  | cons first rest ih =>
      rw [allOf, all_eq, List.cons_append]
      exact .cons_cons first (ih.trans (List.sublist_append_right _ _))

theorem nodup_folders {entries : List ContainerEntry} {folder : Folder}
    (h : folder ∈ all (ofEntries entries)) : folder.folders.Nodup := by
  have hnodup := nodup_all _ (List.Nodup.of_map path (nodup_paths entries)) h
  rw [all_eq] at hnodup
  exact (List.nodup_cons.mp hnodup).2.sublist (sublist_allOf folder.folders)

/-- Each folder stands in one folder. -/
theorem eq_of_folder_in_both {entries : List ContainerEntry} {inner outer other : Folder}
    (houter : outer ∈ all (ofEntries entries)) (hother : other ∈ all (ofEntries entries))
    (hinner : inner ∈ outer.folders) (hagain : inner ∈ other.folders) : outer = other :=
  eq_of_mem_folders hinner hagain _ (List.Nodup.of_map path (nodup_paths entries)) houter hother

end AssemblyBrowser.Folder
