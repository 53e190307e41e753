import AssemblyBrowser.Proofs.Containers.Folders

/-!
# The order of folders

Folders stand beside each other in the order of the first segments of their names. A
folder that is shown together with folders inside it has a longer name, which goes on
with a slash. The name of another folder may go on with a character in front of the
slash instead, and then the two stand in the wrong order. In no other case do they.
-/

namespace AssemblyBrowser

/-!
## Names that go on with a slash
-/

namespace Folder

/-- A name goes on behind another one with a character in front of the slash. -/
def Undercuts (first second : List Char) : Prop :=
  ∃ c rest, second = first ++ c :: rest ∧ c < '/'

/-- What is put behind a name begins with a slash, if it is anything. -/
def IsAddition (addition : List Char) : Prop :=
  addition = [] ∨ ∃ rest, addition = '/' :: rest

/-- What stands in front of the first slash of a name. -/
def firstSegment (name : String) : String :=
  String.ofList (name.toList.takeWhile fun c => c ≠ '/')

theorem not_undercuts_of_head_ne {a b : Char} {first second : List Char} (h : a ≠ b) :
    ¬ Undercuts (a :: first) (b :: second) := by
  rintro ⟨c, rest, heq, -⟩
  exact h (List.cons.inj heq).1.symm

theorem undercuts_cons {a : Char} {first second : List Char} :
    Undercuts (a :: first) (a :: second) ↔ Undercuts first second := by
  simp [Undercuts]

theorem undercuts_nil {c : Char} {second : List Char} : Undercuts [] (c :: second) ↔ c < '/' := by
  simp [Undercuts]

theorem Undercuts.lt {first second : List Char} (h : Undercuts first second) : first < second := by
  obtain ⟨c, rest, rfl, -⟩ := h
  induction first with
  | nil => exact List.nil_lt_cons c rest
  | cons a first ih => exact List.cons_lt_cons_iff.mpr (.inr ⟨rfl, ih⟩)

/-- Additions to two names turn their order around exactly if the second name undercuts the first
one and something is added to that. -/
theorem append_lt_append_iff {first second addition other : List Char} (hlt : first < second)
    (hslash : '/' ∉ second) (haddition : IsAddition addition) :
    first ++ addition < second ++ other ↔ ¬ (addition ≠ [] ∧ Undercuts first second) := by
  induction first generalizing second with
  | nil =>
      cases second with
      | nil => exact absurd hlt (List.not_lt_nil _)
      | cons c rest =>
          have hne : '/' ≠ c := fun heq => hslash (heq ▸ List.mem_cons_self)
          rcases haddition with rfl | ⟨added, rfl⟩
          · simp
          · rw [List.nil_append, List.cons_append, List.cons_lt_cons_iff, undercuts_nil, not_and,
              not_lt]
            constructor
            · rintro (hbehind | ⟨heq, -⟩) _
              · exact le_of_lt hbehind
              · exact absurd heq hne
            · intro hle
              exact .inl (lt_of_le_of_ne (hle (List.cons_ne_nil _ _)) hne)
  | cons a first ih =>
      cases second with
      | nil => exact absurd hlt (List.not_lt_nil _)
      | cons b second =>
          rw [List.cons_append, List.cons_append, List.cons_lt_cons_iff]
          rcases List.cons_lt_cons_iff.mp hlt with hhead | ⟨rfl, htail⟩
          · have hno : ¬ Undercuts (a :: first) (b :: second) := not_undercuts_of_head_ne hhead.ne
            simp [hhead, hno]
          · have hrest := ih htail fun hmem => hslash (List.mem_cons_of_mem _ hmem)
            rw [undercuts_cons, ← hrest]
            simp

end Folder

/-!
## Names of folders
-/

namespace FolderDraft

/-- The names of the folders that a draft is shown together with, outer ones first. -/
def joined : FolderDraft → List String
  | .node [(name, child)] [] => name :: joined child
  | .node _ _ => []

/-- The name under which a draft is shown. -/
def shownName (folder : String × FolderDraft) : String :=
  String.intercalate "/" (folder.1 :: joined folder.2)

theorem toList_shownName (folder : String × FolderDraft) :
    ∃ addition, (shownName folder).toList = folder.1.toList ++ addition ∧
      Folder.IsAddition addition ∧ (addition = [] ↔ joined folder.2 = []) := by
  rcases folder with ⟨name, draft⟩
  unfold shownName
  cases hjoined : joined draft with
  | nil => exact ⟨[], by simp, .inl rfl, by simp⟩
  | cons next others =>
      refine ⟨'/' :: (String.intercalate "/" (next :: others)).toList, ?_, .inr ⟨_, rfl⟩, by simp⟩
      rw [String.intercalate_cons_cons, String.toList_append, String.toList_append,
        List.append_assoc]
      rfl

/-- The folders beside each other are in the order of the names under which they are shown. -/
def ShownInOrder (draft : FolderDraft) : Prop :=
  (draft.folders.map shownName).Pairwise (· < ·)

/-- Where a pair of items is related or not says all about a list that is in order. -/
theorem pairwise_iff_of_ordered {folders : List (String × FolderDraft)}
    (hordered : (folders.map (·.1)).Pairwise (· < ·))
    {R : String × FolderDraft → String × FolderDraft → Prop} :
    folders.Pairwise R ↔
      ∀ first ∈ folders, ∀ second ∈ folders, first.1 < second.1 → R first second := by
  have hkeys := List.pairwise_map.mp hordered
  constructor
  · intro hpairs first hfirst second hsecond
    let S := fun first second : String × FolderDraft =>
      (first.1 < second.1 → R first second) ∧ (second.1 < first.1 → R second first)
    have hsymm : Std.Symm S := ⟨fun _ _ h => h.symm⟩
    have hsame : ∀ folder ∈ folders, S folder folder := fun folder _ =>
      ⟨fun h => absurd h (lt_irrefl _), fun h => absurd h (lt_irrefl _)⟩
    have hboth : folders.Pairwise S := (hkeys.and hpairs).imp fun h =>
      ⟨fun _ => h.2, fun hback => absurd h.1 (lt_asymm hback)⟩
    exact (hboth.forall_of_forall hsame hfirst hsecond).1
  · intro hall
    exact hkeys.imp_of_mem fun hfirst hsecond hlt => hall _ hfirst _ hsecond hlt

/-- Folders are shown in order exactly if no name undercuts that of one that is shown together with
folders inside it. -/
theorem Orderly.shownInOrder_iff {draft : FolderDraft} (h : Orderly draft) :
    ShownInOrder draft ↔ ∀ first ∈ draft.folders, ∀ second ∈ draft.folders,
      ¬ (joined first.2 ≠ [] ∧ Folder.Undercuts first.1.toList second.1.toList) := by
  cases h with
  | @node folders entries hordered hnames hinside =>
      have hpair (first second : String × FolderDraft) (hsecond : second ∈ folders)
          (hlt : first.1 < second.1) : shownName first < shownName second ↔
            ¬ (joined first.2 ≠ [] ∧ Folder.Undercuts first.1.toList second.1.toList) := by
        obtain ⟨addition, hfirst, hslash, hempty⟩ := toList_shownName first
        obtain ⟨other, hother, -, -⟩ := toList_shownName second
        have hsome : joined first.2 ≠ [] ↔ addition ≠ [] := not_congr hempty.symm
        rw [String.lt_iff_toList_lt, hfirst, hother, hsome]
        exact Folder.append_lt_append_iff (String.lt_iff_toList_lt.mp hlt)
          (hnames second hsecond).noSlash hslash
      show (folders.map shownName).Pairwise (· < ·) ↔ ∀ first ∈ folders, ∀ second ∈ folders, _
      rw [List.pairwise_map, pairwise_iff_of_ordered hordered]
      refine forall₂_congr fun first hfirst => forall₂_congr fun second hsecond => ?_
      constructor
      · intro hshown hbad
        have hlt : first.1 < second.1 := String.lt_iff_toList_lt.mpr hbad.2.lt
        exact (hpair first second hsecond hlt).mp (hshown hlt) hbad
      · intro hgood hlt
        exact (hpair first second hsecond hlt).mpr hgood

/-- What a shown name goes on with behind its first segment. -/
theorem firstSegment_shownName {folder : String × FolderDraft} (h : Folder.IsSegment folder.1) :
    Folder.firstSegment (shownName folder) = folder.1 := by
  have hplain : ∀ c ∈ folder.1.toList, decide (c ≠ '/') = true := by
    intro c hc
    exact decide_eq_true fun heq => h.noSlash (heq ▸ hc)
  obtain ⟨addition, hname, haddition, -⟩ := toList_shownName folder
  have hnone : addition.takeWhile (fun c => decide (c ≠ '/')) = [] := by
    rcases haddition with rfl | ⟨rest, rfl⟩
    · rfl
    · simp
  rw [Folder.firstSegment, hname, List.takeWhile_append_of_pos hplain, hnone, List.append_nil,
    String.ofList_toList]

theorem Orderly.firstSegments_ordered {draft : FolderDraft} (h : Orderly draft) :
    ((draft.folders.map shownName).map Folder.firstSegment).Pairwise (· < ·) := by
  cases h with
  | @node folders entries hordered hnames hinside =>
      have hsame : (folders.map shownName).map Folder.firstSegment = folders.map (·.1) := by
        rw [List.map_map]
        exact List.map_congr_left fun folder hfolder =>
          firstSegment_shownName (hnames folder hfolder)
      exact hsame ▸ hordered

theorem mem_within_of_mem_folders {draft : FolderDraft} {folder : String × FolderDraft}
    (h : folder ∈ draft.folders) {inner : List String × FolderDraft}
    (hinner : inner ∈ within folder.2) : (folder.1 :: inner.1, inner.2) ∈ within draft := by
  rw [within_eq, withinOf_eq]
  exact List.mem_cons_of_mem _ (List.mem_flatMap.mpr ⟨folder, h, List.mem_map_of_mem hinner⟩)

theorem Orderly.of_mem_within {draft : FolderDraft} (h : Orderly draft)
    {inner : List String × FolderDraft} (hinner : inner ∈ within draft) : Orderly inner.2 := by
  induction h generalizing inner with
  | @node folders entries hordered hnames hinside ih =>
      rw [within_eq] at hinner
      rcases List.mem_cons.mp hinner with rfl | hbelow
      · exact .node hordered hnames hinside
      · rw [withinOf_eq] at hbelow
        rcases List.mem_flatMap.mp hbelow with ⟨folder, hfolder, hbelow⟩
        rcases List.mem_map.mp hbelow with ⟨deeper, hdeeper, rfl⟩
        have horderly := ih folder hfolder hdeeper
        exact horderly

end FolderDraft

namespace Folder

open FolderDraft (within withinOf joined shownName)

theorem name_ofDraft (names : Array String) (name path : String) (draft : FolderDraft) :
    (ofDraft names name path draft).name = shownName (name, draft) := by
  show _ = String.intercalate "/" (name :: joined draft)
  fun_induction joined draft generalizing name path with
  | case1 childName child ih =>
      rw [ofDraft, ih, String.intercalate_cons_cons]
      cases joined child with
      | nil => rw [String.intercalate_singleton, String.intercalate_singleton]
      | cons next others =>
          rw [String.intercalate_cons_cons, String.intercalate_cons_cons]
          simp only [String.append_assoc]
  | case2 folders entries hjoins =>
      rw [ofDraft.eq_2 names name path folders entries hjoins, String.intercalate_singleton]
      rfl

theorem names_ofDrafts (names : Array String) (path : String)
    (drafts : List (String × FolderDraft)) :
    (ofDrafts names path drafts).map name = drafts.map shownName := by
  induction drafts with
  | nil => rfl
  | cons draft rest ih => rw [ofDrafts, List.map_cons, List.map_cons, name_ofDraft, ih]

variable {P : List String → Prop}

/-- The names in the folders are those in the drafts, but for drafts that are joined with the only
folder in them. -/
theorem names_iff_ofDrafts (hsingle : ∀ name, P [name]) (names : Array String) (path : String)
    (drafts : List (String × FolderDraft)) :
    (∀ folder ∈ allOf (ofDrafts names path drafts), P (folder.folders.map name)) ↔
      ∀ inner ∈ withinOf drafts, P (inner.2.folders.map shownName) := by
  refine ofDrafts.induct
    (fun name path draft =>
      (∀ folder ∈ all (ofDraft names name path draft), P (folder.folders.map Folder.name)) ↔
        ∀ inner ∈ within draft, P (inner.2.folders.map shownName))
    (fun path drafts =>
      (∀ folder ∈ allOf (ofDrafts names path drafts), P (folder.folders.map Folder.name)) ↔
        ∀ inner ∈ withinOf drafts, P (inner.2.folders.map shownName)) ?_ ?_ ?_ ?_ path drafts
  · intro name path childName child ih
    rw [ofDraft, ih, FolderDraft.within_eq (.node _ _), List.forall_mem_cons,
      FolderDraft.folders, withinOf, withinOf, List.append_nil, List.forall_mem_map]
    exact (and_iff_right (hsingle _)).symm
  · intro name path folders entries hjoins ih
    rw [ofDraft.eq_2 names name path folders entries hjoins, all, List.forall_mem_cons, ih,
      FolderDraft.within_eq (.node _ _), List.forall_mem_cons]
    show P ((ofDrafts names path folders).map Folder.name) ∧ _ ↔ P (folders.map shownName) ∧ _
    rw [names_ofDrafts]
    rfl
  · intro path
    simp [ofDrafts, allOf, withinOf]
  · intro path name draft rest ihDraft ihRest
    rw [ofDrafts, allOf, List.forall_mem_append, ihDraft, ihRest, withinOf, List.forall_mem_append,
      List.forall_mem_map]
    rfl

theorem names_iff_ofEntries (hsingle : ∀ name, P [name]) (entries : List ContainerEntry) :
    (∀ folder ∈ all (ofEntries entries), P (folder.folders.map name)) ↔
      ∀ inner ∈ within (draftOf entries), P (inner.2.folders.map shownName) := by
  unfold ofEntries
  cases draftOf entries with
  | node folders direct =>
      show (∀ folder ∈ all (.node "" "" (ofDrafts _ "" folders) _), _) ↔ _
      rw [all, List.forall_mem_cons, names_iff_ofDrafts hsingle,
        FolderDraft.within_eq (.node _ _), List.forall_mem_cons]
      show P ((ofDrafts _ "" folders).map Folder.name) ∧ _ ↔ P (folders.map shownName) ∧ _
      rw [names_ofDrafts]
      rfl

end Folder

/-!
## Drafts and the entries in them
-/

namespace FolderDraft

theorem mem_within_nil {draft inner : FolderDraft} :
    ([], inner) ∈ within draft ↔ inner = draft := by
  rw [within_eq, withinOf_eq]
  simp

theorem mem_within_cons {draft inner : FolderDraft} {name : String} {names : List String} :
    (name :: names, inner) ∈ within draft ↔
      ∃ child, (name, child) ∈ draft.folders ∧ (names, inner) ∈ within child := by
  rw [within_eq, withinOf_eq]
  simp

theorem mem_placed {drafts : List (List String × FolderDraft)} {names : List String} {entry : Nat} :
    (names, entry) ∈ placed drafts ↔ ∃ draft, (names, draft) ∈ drafts ∧ entry ∈ draft.entries := by
  unfold placed
  simp

/-- Of two folders beside each other with one name there is only one. -/
theorem Orderly.eq_of_name {draft : FolderDraft} (h : Orderly draft) {name : String}
    {first second : FolderDraft} (hfirst : (name, first) ∈ draft.folders)
    (hsecond : (name, second) ∈ draft.folders) : first = second := by
  cases h with
  | @node folders entries hordered hnames hinside =>
      have hnodup : (folders.map (·.1)).Nodup := hordered.imp fun hlt => ne_of_lt hlt
      exact (Prod.mk.inj (List.inj_on_of_nodup_map hnodup hfirst hsecond rfl)).2

/-- What is placed behind the names that lead to a draft is placed in that draft. -/
theorem Orderly.mem_placed_append {draft inner : FolderDraft} (h : Orderly draft)
    {names : List String} (hinner : (names, inner) ∈ within draft) {rest : List String}
    {entry : Nat} :
    (names ++ rest, entry) ∈ placed (within draft) ↔ (rest, entry) ∈ placed (within inner) := by
  induction names generalizing draft with
  | nil =>
      rw [mem_within_nil.mp hinner]
      rfl
  | cons name names ih =>
      obtain ⟨child, hchild, hbelow⟩ := mem_within_cons.mp hinner
      have horderly : Orderly child :=
        h.of_mem_within (mem_within_of_mem_folders hchild (mem_within_nil.mpr rfl))
      rw [← ih horderly hbelow, List.cons_append, mem_placed, mem_placed]
      simp only [mem_within_cons]
      constructor
      · rintro ⟨deeper, ⟨other, hother, hdeeper⟩, hentry⟩
        exact ⟨deeper, h.eq_of_name hchild hother ▸ hdeeper, hentry⟩
      · rintro ⟨deeper, hdeeper, hentry⟩
        exact ⟨deeper, ⟨child, hchild, hdeeper⟩, hentry⟩

/-- The names in front of a place lead to a draft, too. -/
theorem exists_within_of_append {draft deeper : FolderDraft} {names rest : List String}
    (h : (names ++ rest, deeper) ∈ within draft) : ∃ inner, (names, inner) ∈ within draft := by
  induction names generalizing draft with
  | nil => exact ⟨draft, mem_within_nil.mpr rfl⟩
  | cons name names ih =>
      obtain ⟨child, hchild, hbelow⟩ := mem_within_cons.mp h
      obtain ⟨inner, hinner⟩ := ih hbelow
      exact ⟨inner, mem_within_cons.mpr ⟨child, hchild, hinner⟩⟩

/-- Each folder inside the draft holds an entry, itself or further inside. -/
inductive Filled : FolderDraft → Prop
  | node {folders : List (String × FolderDraft)} {entries : List Nat}
      (hplaced : ∀ folder ∈ folders, placed (within folder.2) ≠ [])
      (hinside : ∀ folder ∈ folders, Filled folder.2) : Filled (.node folders entries)

theorem empty_filled : Filled empty :=
  .node (fun _ h => absurd h List.not_mem_nil) fun _ h => absurd h List.not_mem_nil

theorem placed_insert_ne_nil (entry : Nat) (segments : List String) (draft : FolderDraft) :
    placed (within (insert entry segments draft)) ≠ [] := by
  intro hempty
  have hperm := placed_insert entry segments draft
  rw [hempty] at hperm
  exact List.cons_ne_nil _ _ hperm.nil_eq.symm

theorem Filled.insert {draft : FolderDraft} (h : Filled draft) (entry : Nat)
    (segments : List String) : Filled (draft.insert entry segments) := by
  induction segments generalizing draft with
  | nil =>
      cases h with
      | node hplaced hinside => exact .node hplaced hinside
  | cons name rest ih =>
      cases h with
      | node hplaced hinside =>
          rw [FolderDraft.insert]
          refine .node ?_ ?_
          · intro folder hfolder
            rcases mem_changeChild hfolder with hold | ⟨-, hnew | ⟨old, -, hnew⟩⟩
            · exact hplaced folder hold
            · exact hnew ▸ placed_insert_ne_nil entry rest empty
            · exact hnew ▸ placed_insert_ne_nil entry rest old
          · intro folder hfolder
            rcases mem_changeChild hfolder with hold | ⟨-, hnew | ⟨old, hold, hnew⟩⟩
            · exact hinside folder hold
            · exact hnew ▸ ih empty_filled
            · exact hnew ▸ ih (hinside _ hold)

theorem filled_draftOf (entries : List ContainerEntry) : Filled (Folder.draftOf entries) := by
  have hinserts (numbered : List (ContainerEntry × Nat)) {draft : FolderDraft} (h : Filled draft) :
      Filled (numbered.foldl
        (fun draft entry => draft.insert entry.2 (Folder.folderSegments entry.1.path)) draft) := by
    induction numbered generalizing draft with
    | nil => exact h
    | cons entry rest ih => exact ih (h.insert _ _)
  exact hinserts entries.zipIdx empty_filled

theorem Filled.of_mem_within {draft inner : FolderDraft} (h : Filled draft) {names : List String}
    (hinner : (names, inner) ∈ within draft) : Filled inner := by
  induction names generalizing draft with
  | nil =>
      rw [mem_within_nil.mp hinner]
      exact h
  | cons name names ih =>
      obtain ⟨child, hchild, hbelow⟩ := mem_within_cons.mp hinner
      cases h with
      | node hplaced hinside => exact ih (hinside _ hchild) hbelow

theorem Filled.exists_placed {draft child : FolderDraft} {name : String} (h : Filled draft)
    (hchild : (name, child) ∈ draft.folders) :
    ∃ rest entry, (name :: rest, entry) ∈ placed (within draft) := by
  cases h with
  | @node folders entries hplaced hinside =>
      obtain ⟨⟨rest, entry⟩, hentry⟩ := List.exists_mem_of_ne_nil _ (hplaced _ hchild)
      obtain ⟨deeper, hdeeper, hin⟩ := mem_placed.mp hentry
      have hwithin := mem_within_cons.mpr ⟨child, hchild, hdeeper⟩
      exact ⟨rest, entry, mem_placed.mpr ⟨deeper, hwithin, hin⟩⟩

/-- Something is placed in a draft itself if and only if the draft has entries. -/
theorem mem_placed_nil {draft : FolderDraft} {entry : Nat} :
    ([], entry) ∈ placed (within draft) ↔ entry ∈ draft.entries := by
  rw [mem_placed]
  simp only [mem_within_nil]
  exact ⟨fun ⟨_, heq, hentry⟩ => heq ▸ hentry, fun hentry => ⟨draft, rfl, hentry⟩⟩

theorem exists_folder_of_mem_placed {draft : FolderDraft} {name : String} {rest : List String}
    {entry : Nat} (h : (name :: rest, entry) ∈ placed (within draft)) :
    ∃ child, (name, child) ∈ draft.folders := by
  obtain ⟨deeper, hdeeper, -⟩ := mem_placed.mp h
  obtain ⟨child, hchild, -⟩ := mem_within_cons.mp hdeeper
  exact ⟨child, hchild⟩

theorem joined_ne_nil_iff {draft : FolderDraft} :
    joined draft ≠ [] ↔ draft.entries = [] ∧ ∃ folder, draft.folders = [folder] := by
  cases draft with
  | node folders entries =>
      unfold joined
      split
      case h_1 childName child heq =>
        cases heq
        simp [FolderDraft.entries, FolderDraft.folders]
      case h_2 _ _ hjoins heq =>
        cases heq
        constructor
        · intro hne
          exact absurd rfl hne
        · rintro ⟨hentries, ⟨childName, child⟩, hfolders⟩
          exact (hjoins childName child hfolders hentries).elim

theorem mem_within_append {draft inner child : FolderDraft} {names : List String} {name : String}
    (hinner : (names, inner) ∈ within draft) (hchild : (name, child) ∈ inner.folders) :
    (names ++ [name], child) ∈ within draft := by
  induction names generalizing draft with
  | nil =>
      rw [mem_within_nil.mp hinner] at hchild
      exact mem_within_cons.mpr ⟨child, hchild, mem_within_nil.mpr rfl⟩
  | cons first names ih =>
      obtain ⟨between, hbetween, hbelow⟩ := mem_within_cons.mp hinner
      exact mem_within_cons.mpr ⟨between, hbetween, ih hbelow⟩

end FolderDraft

namespace Folder

open FolderDraft (within placed joined)

variable (entries : List ContainerEntry)

/-- The names lead to a folder, since the path of an entry leads there or further. -/
def Holds (names : List String) : Prop :=
  ∃ entry ∈ entries, names <+: folderSegments entry.path

/-- The names lead to a folder that holds nothing but one other folder. -/
def IsJoined (names : List String) : Prop :=
  ∃ next, Holds entries (names ++ [next]) ∧
    ∀ entry ∈ entries, names <+: folderSegments entry.path →
      names ++ [next] <+: folderSegments entry.path

/-- Beside each other stand a folder that holds nothing but one other folder, and one whose name
goes on behind that of the first with a character in front of the slash. -/
structure Misplaced (above : List String) (first second : String) : Prop where
  joined : IsJoined entries (above ++ [first])
  beside : Holds entries (above ++ [second])
  undercuts : Undercuts first.toList second.toList

variable {entries}

theorem exists_placed_iff {names : List String} :
    (∃ index, (names, index) ∈ placed (within (draftOf entries))) ↔
      ∃ entry ∈ entries, folderSegments entry.path = names := by
  simp only [(FolderDraft.placed_draftOf entries).mem_iff, List.mem_map, Prod.mk.injEq, Prod.exists,
    List.mem_zipIdx_iff_getElem?]
  constructor
  · rintro ⟨index, entry, _, hentry, hnames, -⟩
    exact ⟨entry, List.mem_of_getElem? hentry, hnames⟩
  · rintro ⟨entry, hentry, hnames⟩
    obtain ⟨index, hindex⟩ := List.mem_iff_getElem?.mp hentry
    exact ⟨index, entry, index, hindex, hnames, rfl⟩

theorem holds_iff {names : List String} :
    Holds entries names ↔
      ∃ rest index, (names ++ rest, index) ∈ placed (within (draftOf entries)) := by
  simp only [exists_placed_iff]
  constructor
  · rintro ⟨entry, hentry, rest, hrest⟩
    exact ⟨rest, entry, hentry, hrest.symm⟩
  · rintro ⟨rest, entry, hentry, hnames⟩
    exact ⟨entry, hentry, rest, hnames.symm⟩

theorem exists_within_of_holds {names : List String} (h : Holds entries names) :
    ∃ draft, (names, draft) ∈ within (draftOf entries) := by
  obtain ⟨rest, index, hplaced⟩ := holds_iff.mp h
  obtain ⟨deeper, hdeeper, -⟩ := FolderDraft.mem_placed.mp hplaced
  exact FolderDraft.exists_within_of_append hdeeper

section Place

variable {names : List String} {draft : FolderDraft}

theorem mem_placed_append_iff (h : (names, draft) ∈ within (draftOf entries)) {rest : List String}
    {index : Nat} : (names ++ rest, index) ∈ placed (within (draftOf entries)) ↔
      (rest, index) ∈ placed (within draft) :=
  (FolderDraft.orderly_draftOf entries).mem_placed_append h

/-- A draft has the folders to which the paths of entries lead. -/
theorem exists_folder_iff (h : (names, draft) ∈ within (draftOf entries)) {name : String} :
    (∃ child, (name, child) ∈ draft.folders) ↔ Holds entries (names ++ [name]) := by
  constructor
  · rintro ⟨child, hchild⟩
    obtain ⟨rest, index, hentry⟩ :=
      ((FolderDraft.filled_draftOf entries).of_mem_within h).exists_placed hchild
    refine holds_iff.mpr ⟨rest, index, ?_⟩
    rw [List.append_assoc]
    exact (mem_placed_append_iff h).mpr hentry
  · intro hholds
    obtain ⟨rest, index, hentry⟩ := holds_iff.mp hholds
    rw [List.append_assoc] at hentry
    exact FolderDraft.exists_folder_of_mem_placed ((mem_placed_append_iff h).mp hentry)

/-- A draft has entries of its own if their paths end there. -/
theorem entries_eq_nil_iff (h : (names, draft) ∈ within (draftOf entries)) :
    draft.entries = [] ↔ ∀ entry ∈ entries, folderSegments entry.path ≠ names := by
  have hplaced {index : Nat} : (names, index) ∈ placed (within (draftOf entries)) ↔
      index ∈ draft.entries := by
    rw [← FolderDraft.mem_placed_nil, ← mem_placed_append_iff h, List.append_nil]
  rw [List.eq_nil_iff_forall_not_mem]
  constructor
  · intro hnone entry hentry hnames
    obtain ⟨index, hindex⟩ := exists_placed_iff.mpr ⟨entry, hentry, hnames⟩
    exact hnone index (hplaced.mp hindex)
  · intro hnone index hindex
    obtain ⟨entry, hentry, hnames⟩ := exists_placed_iff.mp ⟨index, hplaced.mpr hindex⟩
    exact hnone entry hentry hnames

/-- A draft is joined with the folder inside it if all paths through it go on to that folder. -/
theorem joined_ne_nil_iff (h : (names, draft) ∈ within (draftOf entries)) :
    joined draft ≠ [] ↔ IsJoined entries names := by
  rw [FolderDraft.joined_ne_nil_iff, entries_eq_nil_iff h]
  constructor
  · rintro ⟨hnone, ⟨next, child⟩, hfolders⟩
    refine ⟨next, (exists_folder_iff h).mp ⟨child, by simp [hfolders]⟩, ?_⟩
    rintro entry hentry ⟨rest, hrest⟩
    cases rest with
    | nil => exact absurd (hrest.symm.trans (List.append_nil names)) (hnone entry hentry)
    | cons name rest =>
        have hholds : Holds entries (names ++ [name]) := by
          refine ⟨entry, hentry, rest, ?_⟩
          rw [List.append_assoc]
          exact hrest
        obtain ⟨other, hother⟩ := (exists_folder_iff h).mpr hholds
        rw [hfolders, List.mem_singleton, Prod.mk.injEq] at hother
        refine ⟨rest, ?_⟩
        rw [← hother.1, List.append_assoc]
        exact hrest
  · rintro ⟨next, hholds, hall⟩
    -- Any folder in the draft is the one to which all paths go on.
    have hnext (folder : String × FolderDraft) (hfolder : folder ∈ draft.folders) :
        folder.1 = next := by
      obtain ⟨entry, hentry, hprefix⟩ := (exists_folder_iff h).mp ⟨folder.2, hfolder⟩
      have hboth := List.prefix_of_prefix_length_le hprefix
        (hall entry hentry ((List.prefix_append _ _).trans hprefix)) (by simp)
      have hsame := hboth.eq_of_length (by simp)
      simpa using hsame
    obtain ⟨child, hchild⟩ := (exists_folder_iff h).mpr hholds
    have horderly := (FolderDraft.orderly_draftOf entries).of_mem_within h
    constructor
    · intro entry hentry hnames
      have hlonger := hall entry hentry (hnames ▸ List.prefix_rfl)
      rw [hnames] at hlonger
      simpa using hlonger.length_le
    · cases horderly with
      | @node folders direct hordered hnames hinside =>
          rcases folders with _ | ⟨folder, _ | ⟨second, rest⟩⟩
          · cases hchild
          · exact ⟨folder, rfl⟩
          · have hlt : folder.1 < second.1 :=
              (List.pairwise_cons.mp hordered).1 second.1 List.mem_cons_self
            rw [hnext folder (by simp [FolderDraft.folders]),
              hnext second (by simp [FolderDraft.folders])] at hlt
            exact absurd hlt (lt_irrefl next)

/-- The folders of a draft are shown in order exactly if no two of them are misplaced. -/
theorem shownInOrder_iff (h : (names, draft) ∈ within (draftOf entries)) :
    FolderDraft.ShownInOrder draft ↔ ∀ first second, ¬ Misplaced entries names first second := by
  rw [((FolderDraft.orderly_draftOf entries).of_mem_within h).shownInOrder_iff]
  constructor
  · rintro hgood first second ⟨hjoined, hbeside, hundercuts⟩
    have ⟨next, hholds, _⟩ := hjoined
    have hfirst : Holds entries (names ++ [first]) := by
      obtain ⟨entry, hentry, hprefix⟩ := hholds
      exact ⟨entry, hentry, (List.prefix_append _ _).trans hprefix⟩
    obtain ⟨child, hchild⟩ := (exists_folder_iff h).mpr hfirst
    obtain ⟨other, hother⟩ := (exists_folder_iff h).mpr hbeside
    refine hgood (first, child) hchild (second, other) hother ⟨?_, hundercuts⟩
    exact (joined_ne_nil_iff (FolderDraft.mem_within_append h hchild)).mpr hjoined
  · rintro hgood ⟨first, child⟩ hchild ⟨second, other⟩ hother ⟨hjoined, hundercuts⟩
    have hwithin := FolderDraft.mem_within_append h hchild
    exact hgood first second ⟨(joined_ne_nil_iff hwithin).mp hjoined,
      (exists_folder_iff h).mp ⟨other, hother⟩, hundercuts⟩

end Place

/-- The folders in a folder are in the order of the first segments of their names. They are in the
order of their whole names, in all folders of a container, exactly if nowhere a folder that is
shown together with folders inside it stands beside one whose name goes on behind the first segment
of that with a character in front of the slash. -/
theorem folders_in_order_iff (entries : List ContainerEntry) :
    (∀ folder ∈ all (ofEntries entries),
      (folder.folders.map fun inner => firstSegment inner.name).Pairwise (· < ·)) ∧
    ((∀ folder ∈ all (ofEntries entries), (folder.folders.map name).Pairwise (· < ·)) ↔
      ∀ above first second, ¬ Misplaced entries above first second) := by
  have horderly := FolderDraft.orderly_draftOf entries
  constructor
  · have hfirst := names_iff_ofEntries (P := fun names =>
      (names.map firstSegment).Pairwise (· < ·)) (fun _ => List.pairwise_singleton _ _) entries
    simp only [List.map_map] at hfirst
    refine hfirst.mpr fun inner hinner => ?_
    rw [← List.map_map]
    exact (horderly.of_mem_within hinner).firstSegments_ordered
  · rw [names_iff_ofEntries (P := List.Pairwise (· < ·)) (fun _ => List.pairwise_singleton _ _)]
    constructor
    · intro hshown above first second hbad
      obtain ⟨entry, hentry, hprefix⟩ := hbad.beside
      obtain ⟨draft, hdraft⟩ := exists_within_of_holds
        ⟨entry, hentry, (List.prefix_append above [second]).trans hprefix⟩
      exact (shownInOrder_iff hdraft).mp (hshown _ hdraft) first second hbad
    · intro hgood inner hinner
      exact (shownInOrder_iff hinner).mpr (hgood inner.1)

/-- A file of one byte that is stored under a path. -/
def letterEntry (name path : String) : ContainerEntry where
  name
  path
  length := some 1
  compressedLength := 1
  offset := 0
  compression := .stored
  kind := .resource

def dashedEntries : List ContainerEntry :=
  [letterEntry "a.txt" "lib/net8.0/a.txt", letterEntry "b.txt" "lib-tools/b.txt"]

/-- A dash stands in front of a slash, but the folder with the dash behind the one with the
slash. -/
theorem dashed_folder_behind :
    (ofEntries dashedEntries).folders.map name = ["lib/net8.0", "lib-tools"] ∧
      "lib-tools" < "lib/net8.0" ∧
      ¬ ∀ folder ∈ all (ofEntries dashedEntries),
        (folder.folders.map name).Pairwise (· < ·) := by
  have hnames : (ofEntries dashedEntries).folders.map name = ["lib/net8.0", "lib-tools"] := by
    decide +kernel
  refine ⟨hnames, by decide +kernel, fun hordered => ?_⟩
  have hroot := hordered _ (mem_all_self (ofEntries dashedEntries))
  rw [hnames] at hroot
  exact absurd hroot (by decide +kernel)

end Folder
end AssemblyBrowser
