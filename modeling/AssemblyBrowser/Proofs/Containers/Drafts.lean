import Mathlib.Data.List.Nodup
import Mathlib.Data.String.Basic
import AssemblyBrowser.Container.Folder
import AssemblyBrowser.Proofs.Files.PathTexts

/-!
# Drafts of folders

A draft holds the entries that were added to it, each at the end of the names
that lead to it, and nothing else. Beside each other no two folders have the same
name, so different names lead to different drafts.
-/

namespace AssemblyBrowser

/-- Whether a text can be one segment of a path. -/
structure Folder.IsSegment (name : String) : Prop where
  nonempty : name ≠ ""
  noSlash : '/' ∉ name.toList

theorem Folder.isSegment_of_mem_folderSegments {path name : String}
    (h : name ∈ Folder.folderSegments path) : Folder.IsSegment name := by
  rcases List.mem_filter.mp ((List.dropLast_sublist _).subset h) with ⟨hsegment, hname⟩
  constructor
  · rintro rfl
    exact Bool.false_ne_true hname
  · exact FileSystem.not_mem_of_mem_segments hsegment

namespace FolderDraft

def folders : FolderDraft → List (String × FolderDraft)
  | .node folders _ => folders

def entries : FolderDraft → List Nat
  | .node _ entries => entries

mutual
/-- A draft and all drafts in it, outer ones first, each with the names that lead to it. -/
def within : FolderDraft → List (List String × FolderDraft)
  | .node folders entries => ([], .node folders entries) :: withinOf folders

def withinOf : List (String × FolderDraft) → List (List String × FolderDraft)
  | [] => []
  | (name, draft) :: rest => (within draft).map (Prod.map (name :: ·) id) ++ withinOf rest
end

theorem within_eq (draft : FolderDraft) :
    within draft = ([], draft) :: withinOf draft.folders := by
  cases draft
  rw [within]
  rfl

theorem withinOf_eq (folders : List (String × FolderDraft)) :
    withinOf folders =
      folders.flatMap fun folder => (within folder.2).map (Prod.map (folder.1 :: ·) id) := by
  induction folders with
  | nil => rw [withinOf, List.flatMap_nil]
  | cons folder rest ih => rw [withinOf, ih, List.flatMap_cons]

/-!
## Entries
-/

/-- The entries of drafts, each with the names that lead to its draft. -/
def placed (drafts : List (List String × FolderDraft)) : List (List String × Nat) :=
  drafts.flatMap fun inner => inner.2.entries.map fun entry => (inner.1, entry)

theorem placed_cons (names : List String) (draft : FolderDraft)
    (rest : List (List String × FolderDraft)) :
    placed ((names, draft) :: rest) = draft.entries.map (names, ·) ++ placed rest :=
  List.flatMap_cons

theorem placed_append (first second : List (List String × FolderDraft)) :
    placed (first ++ second) = placed first ++ placed second :=
  List.flatMap_append

theorem placed_below (name : String) (drafts : List (List String × FolderDraft)) :
    placed (drafts.map (Prod.map (name :: ·) id)) =
      (placed drafts).map (Prod.map (name :: ·) id) := by
  unfold placed
  rw [List.flatMap_map, List.map_flatMap]
  simp only [List.map_map]
  rfl

theorem placed_withinOf_cons (name : String) (draft : FolderDraft)
    (rest : List (String × FolderDraft)) :
    placed (withinOf ((name, draft) :: rest)) =
      (placed (within draft)).map (Prod.map (name :: ·) id) ++ placed (withinOf rest) := by
  rw [withinOf, placed_append, placed_below]

/-- What a change adds to a folder, it adds to the folders beside it too. -/
theorem placed_changeChild {name : String} {segments : List String} {entry : Nat}
    {change : FolderDraft → FolderDraft}
    (hchange : ∀ draft,
      (placed (within (change draft))).Perm ((segments, entry) :: placed (within draft)))
    (folders : List (String × FolderDraft)) :
    (placed (withinOf (changeChild name change folders))).Perm
      ((name :: segments, entry) :: placed (withinOf folders)) := by
  have hstep (draft : FolderDraft) (rest : List (String × FolderDraft)) :
      (placed (withinOf ((name, change draft) :: rest))).Perm
        ((name :: segments, entry) :: placed (withinOf ((name, draft) :: rest))) := by
    rw [placed_withinOf_cons, placed_withinOf_cons]
    exact ((hchange draft).map _).append_right _
  have hempty (rest : List (String × FolderDraft)) :
      placed (withinOf ((name, empty) :: rest)) = placed (withinOf rest) := by
    rw [placed_withinOf_cons]
    rfl
  induction folders with
  | nil =>
      have hnew := hstep empty []
      rw [hempty] at hnew
      exact hnew
  | cons folder rest ih =>
      rcases folder with ⟨other, draft⟩
      rw [changeChild]
      split
      case isTrue hsame =>
        rw [hsame]
        exact hstep draft rest
      case isFalse =>
        split
        case isTrue =>
          have hnew := hstep empty ((other, draft) :: rest)
          rw [hempty] at hnew
          exact hnew
        case isFalse =>
          rw [placed_withinOf_cons, placed_withinOf_cons]
          exact (ih.append_left _).trans List.perm_middle

/-- An entry that is added stands at the end of its segments, and the others stay. -/
theorem placed_insert (entry : Nat) (segments : List String) (draft : FolderDraft) :
    (placed (within (insert entry segments draft))).Perm
      ((segments, entry) :: placed (within draft)) := by
  induction segments generalizing draft with
  | nil =>
      cases draft with
      | node folders entries =>
          rw [insert, within, within, placed_cons, placed_cons, ← List.cons_append]
          refine List.Perm.append_right _ ?_
          show ((entries ++ [entry]).map _).Perm _
          rw [List.map_append]
          exact List.perm_append_singleton _ _
  | cons name rest ih =>
      cases draft with
      | node folders entries =>
          rw [insert, within, within, placed_cons, placed_cons]
          exact ((placed_changeChild ih folders).append_left _).trans List.perm_middle

theorem placed_inserts (entries : List (ContainerEntry × Nat)) (draft : FolderDraft) :
    (placed (within (entries.foldl
        (fun draft entry => draft.insert entry.2 (Folder.folderSegments entry.1.path))
        draft))).Perm
      (entries.map (fun entry => (Folder.folderSegments entry.1.path, entry.2))
        ++ placed (within draft)) := by
  induction entries generalizing draft with
  | nil => exact .refl _
  | cons entry rest ih =>
      refine (ih _).trans ?_
      refine ((placed_insert _ _ _).append_left _).trans ?_
      exact List.perm_middle

/-- The draft of a container holds each entry once, in the folder that its path names. -/
theorem placed_draftOf (entries : List ContainerEntry) :
    (placed (within (Folder.draftOf entries))).Perm
      (entries.zipIdx.map fun entry => (Folder.folderSegments entry.1.path, entry.2)) := by
  have hinserts := placed_inserts entries.zipIdx empty
  rw [show placed (within empty) = [] from rfl, List.append_nil] at hinserts
  exact hinserts

/-!
## Names
-/

/-- Whether the folders beside each other are in order of their names, which can be segments of a
path. -/
inductive Orderly : FolderDraft → Prop
  | node {folders : List (String × FolderDraft)} {entries : List Nat}
      (hordered : (folders.map (·.1)).Pairwise (· < ·))
      (hnames : ∀ folder ∈ folders, Folder.IsSegment folder.1)
      (hinside : ∀ folder ∈ folders, Orderly folder.2) : Orderly (.node folders entries)

theorem empty_orderly : Orderly empty :=
  .node List.Pairwise.nil (fun _ h => absurd h List.not_mem_nil) fun _ h =>
    absurd h List.not_mem_nil

theorem mem_changeChild {name : String} {change : FolderDraft → FolderDraft}
    {folders : List (String × FolderDraft)} {folder : String × FolderDraft}
    (h : folder ∈ changeChild name change folders) :
    folder ∈ folders ∨ folder.1 = name ∧
      (folder.2 = change empty ∨ ∃ draft, (name, draft) ∈ folders ∧ folder.2 = change draft) := by
  induction folders with
  | nil =>
      rw [changeChild, List.mem_singleton] at h
      rw [h]
      exact .inr ⟨rfl, .inl rfl⟩
  | cons first rest ih =>
      rcases first with ⟨other, draft⟩
      rw [changeChild] at h
      split at h
      case isTrue hsame =>
        rcases List.mem_cons.mp h with rfl | hrest
        · exact .inr ⟨hsame, .inr ⟨draft, by simp [hsame], rfl⟩⟩
        · exact .inl (List.mem_cons_of_mem _ hrest)
      case isFalse =>
        split at h
        case isTrue =>
          rcases List.mem_cons.mp h with rfl | hrest
          · exact .inr ⟨rfl, .inl rfl⟩
          · exact .inl hrest
        case isFalse =>
          rcases List.mem_cons.mp h with rfl | hrest
          · exact .inl List.mem_cons_self
          · rcases ih hrest with hold | ⟨hname, hnew | ⟨old, hold, hnew⟩⟩
            · exact .inl (List.mem_cons_of_mem _ hold)
            · exact .inr ⟨hname, .inl hnew⟩
            · exact .inr ⟨hname, .inr ⟨old, List.mem_cons_of_mem _ hold, hnew⟩⟩

theorem ordered_changeChild (name : String) (change : FolderDraft → FolderDraft)
    {folders : List (String × FolderDraft)} (h : (folders.map (·.1)).Pairwise (· < ·)) :
    ((changeChild name change folders).map (·.1)).Pairwise (· < ·) := by
  induction folders with
  | nil => exact List.pairwise_singleton _ _
  | cons first rest ih =>
      rcases first with ⟨other, draft⟩
      rw [List.map_cons, List.pairwise_cons] at h
      rw [changeChild]
      split
      case isTrue => exact List.pairwise_cons.mpr h
      case isFalse hne =>
        split
        case isTrue hlt =>
          rw [List.map_cons, List.map_cons, List.pairwise_cons, List.pairwise_cons]
          refine ⟨?_, h⟩
          rintro later (_ | ⟨_, hlater⟩)
          · exact hlt
          · exact String.lt_trans hlt (h.1 later hlater)
        case isFalse hnot =>
          rw [List.map_cons, List.pairwise_cons]
          refine ⟨?_, ih h.2⟩
          intro later hlater
          rcases List.mem_map.mp hlater with ⟨folder, hfolder, rfl⟩
          rcases mem_changeChild hfolder with hold | ⟨hname, _⟩
          · exact h.1 _ (List.mem_map_of_mem hold)
          · rw [hname]
            exact lt_of_le_of_ne (not_lt.mp hnot) hne

theorem Orderly.insert {draft : FolderDraft} (h : Orderly draft) (entry : Nat)
    {segments : List String} (hsegments : ∀ name ∈ segments, Folder.IsSegment name) :
    Orderly (draft.insert entry segments) := by
  induction segments generalizing draft with
  | nil =>
      cases h with
      | node hordered hnames hinside => exact .node hordered hnames hinside
  | cons name rest ih =>
      rw [List.forall_mem_cons] at hsegments
      cases h with
      | node hordered hnames hinside =>
          rw [FolderDraft.insert]
          refine .node (ordered_changeChild name _ hordered) ?_ ?_
          · intro folder hfolder
            rcases mem_changeChild hfolder with hold | ⟨hname, _⟩
            · exact hnames folder hold
            · rw [hname]
              exact hsegments.1
          · intro folder hfolder
            rcases mem_changeChild hfolder with hold | ⟨_, hnew | ⟨old, hold, hnew⟩⟩
            · exact hinside folder hold
            · rw [hnew]
              exact ih empty_orderly hsegments.2
            · rw [hnew]
              exact ih (hinside _ hold) hsegments.2

theorem orderly_draftOf (entries : List ContainerEntry) : Orderly (Folder.draftOf entries) := by
  have hinserts (numbered : List (ContainerEntry × Nat)) {draft : FolderDraft}
      (h : Orderly draft) :
      Orderly (numbered.foldl
        (fun draft entry => draft.insert entry.2 (Folder.folderSegments entry.1.path))
        draft) := by
    induction numbered generalizing draft with
    | nil => exact h
    | cons entry rest ih =>
        exact ih (h.insert _ fun _ hname => Folder.isSegment_of_mem_folderSegments hname)
  exact hinserts entries.zipIdx empty_orderly

/-- The names that lead to drafts inside an orderly one can be segments of a path. -/
theorem Orderly.isSegment {draft : FolderDraft} (h : Orderly draft)
    {inner : List String × FolderDraft} (hinner : inner ∈ within draft) :
    ∀ name ∈ inner.1, Folder.IsSegment name := by
  induction h generalizing inner with
  | node hordered hnames hinside ih =>
      rw [within_eq] at hinner
      rcases List.mem_cons.mp hinner with rfl | hbelow
      · intro name hname
        cases hname
      · rw [withinOf_eq] at hbelow
        rcases List.mem_flatMap.mp hbelow with ⟨folder, hfolder, hbelow⟩
        rcases List.mem_map.mp hbelow with ⟨deeper, hdeeper, rfl⟩
        exact List.forall_mem_cons.mpr ⟨hnames folder hfolder, ih folder hfolder hdeeper⟩

/-- No two drafts inside an orderly one have the same names leading to them. -/
theorem Orderly.nodup_within {draft : FolderDraft} (h : Orderly draft) :
    ((within draft).map (·.1)).Nodup := by
  induction h with
  | @node folders entries hordered hnames hinside ih =>
      have hfolders : (folders.map (·.1)).Nodup := hordered.imp fun hlt => ne_of_lt hlt
      have hbelow (folder : String × FolderDraft) :
          ((within folder.2).map (Prod.map (folder.1 :: ·) id)).map (·.1) =
            ((within folder.2).map (·.1)).map (folder.1 :: ·) := by
        rw [List.map_map, List.map_map]
        rfl
      rw [within, withinOf_eq, List.map_cons, List.map_flatMap, List.nodup_cons]
      simp only [hbelow]
      constructor
      · intro hroot
        rcases List.mem_flatMap.mp hroot with ⟨folder, _, hempty⟩
        simp at hempty
      · rw [List.nodup_flatMap]
        constructor
        · intro folder hfolder
          exact (ih folder hfolder).map List.cons_injective
        · refine (List.pairwise_map.mp hfolders).imp ?_
          intro first second hne names hfirst hsecond
          rcases List.mem_map.mp hfirst with ⟨_, _, rfl⟩
          rcases List.mem_map.mp hsecond with ⟨_, _, hsame⟩
          exact hne (List.cons.inj hsame).1.symm

end FolderDraft
end AssemblyBrowser
