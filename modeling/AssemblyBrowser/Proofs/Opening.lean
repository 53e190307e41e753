import AssemblyBrowser.Proofs.StoreInvariant

/-!
# What opening an archive does

A path is opened in one of four ways: it may be open already, be open on behalf
of another archive only, be new, or fail to load. Each way has its own answer,
and none of them closes an archive or moves one.
-/

namespace AssemblyBrowser
namespace Store

/-- The store and the answer that come of opening a path. -/
inductive Adds (source : ArchiveSource) (store : Store) (path : String) (parent : Option String) :
    Store → AddOutcome → Prop where
  | known (archive : LoadedArchive) (hmem : archive ∈ store.archives)
      (hpath : archive.path = source.normalize path)
      (hkept : archive.autoLoaded = true → parent.isSome = true) :
      Adds source store path parent store { added := false, summary := some archive.summary }
  | promoted (position : Fin store.archives.length)
      (hpath : (store.archives.get position).path = source.normalize path)
      (hauto : (store.archives.get position).autoLoaded = true) (hparent : parent = none) :
      Adds source store path parent
        { archives := store.archives.set position (store.archives.get position).explicit }
        { added := true, summary := some (store.archives.get position).explicit.summary }
  | opened (contents : ArchiveContents) (hnew : source.normalize path ∉ store.paths)
      (hload : source.load (source.normalize path) = .ok contents) :
      Adds source store path parent
        { archives := store.archives ++
            [(LoadedArchive.unopened (source.normalize path) parent).withHandle contents] }
        { added := true
          summary := some ((LoadedArchive.unopened (source.normalize path)
            parent).withHandle contents).summary }
  | failed (error : Error) (hnew : source.normalize path ∉ store.paths)
      (hload : source.load (source.normalize path) = .error error) :
      Adds source store path parent store { added := false, summary := none }

variable {store after : Store} {source : ArchiveSource} {path : String} {parent : Option String}
  {outcome : AddOutcome}

theorem adds_add (hstore : store.WellFormed) (source : ArchiveSource) (path : String)
    (parent : Option String) :
    store.Adds source path parent (store.add source path parent).1
      (store.add source path parent).2 := by
  simp only [Store.add]
  split
  case h_1 position hfind =>
    have hpath : (store.archives.get position).path = source.normalize path :=
      eq_of_beq (List.findFinIdx?_eq_some_iff.mp hfind).1
    have hmem : store.archives.get position ∈ store.archives := List.getElem_mem position.isLt
    split
    case isTrue hpromote =>
      rw [Bool.and_eq_true, Option.isNone_iff_eq_none] at hpromote
      have hpromoted :=
        LoadedArchive.promoted_eq (hstore.archive_wellFormed _ hmem).handle_isSome
      rw [hpath] at hpromoted
      dsimp only
      rw [hpromoted]
      exact .promoted position hpath hpromote.1 hpromote.2
    case isFalse hkept =>
      refine .known _ hmem hpath fun hauto => ?_
      cases parent with
      | none =>
          rw [hauto] at hkept
          exact absurd rfl hkept
      | some parent => rfl
  case h_2 hfind =>
    have hnew : source.normalize path ∉ store.paths := by
      intro hmem
      rcases List.mem_map.mp hmem with ⟨archive, harchive, hpath⟩
      exact List.findFinIdx?_eq_none_iff.mp hfind archive harchive (beq_iff_eq.mpr hpath)
    split
    case h_1 contents hload => exact .opened contents hnew hload
    case h_2 error hload => exact .failed error hnew hload

theorem Adds.wellFormed (h : store.Adds source path parent after outcome)
    (hstore : store.WellFormed) : after.WellFormed := by
  cases h with
  | known => exact hstore
  | promoted position hpath hauto hparent =>
      have hmem : store.archives.get position ∈ store.archives := List.getElem_mem position.isLt
      have hpromoted :=
        LoadedArchive.promoted_eq (hstore.archive_wellFormed _ hmem).handle_isSome
      rw [← hpromoted]
      exact wellFormed_of_step (.promoted path position hpath hauto) hstore
  | opened contents hnew hload =>
      exact wellFormed_of_step (.opened path parent contents hnew hload) hstore
  | failed => exact hstore

/-!
## Before and after
-/

theorem mem_explicitPaths {path : String} :
    path ∈ store.explicitPaths ↔
      ∃ archive ∈ store.archives, archive.autoLoaded = false ∧ archive.path = path := by
  unfold explicitPaths
  rw [List.mem_map]
  constructor
  · rintro ⟨archive, hmem, hpath⟩
    rcases List.mem_filter.mp hmem with ⟨hmem, hauto⟩
    exact ⟨archive, hmem, by simpa using hauto, hpath⟩
  · rintro ⟨archive, hmem, hauto, hpath⟩
    exact ⟨archive, List.mem_filter.mpr ⟨hmem, by simp [hauto]⟩, hpath⟩

theorem mem_set_of_ne {archives : List LoadedArchive} {position : Fin archives.length}
    {archive : LoadedArchive} (hmem : archive ∈ archives) (hne : archive ≠ archives.get position)
    (other : LoadedArchive) : archive ∈ archives.set position other := by
  rcases List.mem_iff_getElem.mp hmem with ⟨index, hindex, rfl⟩
  have hplace : position.val ≠ index := by
    rintro rfl
    exact hne rfl
  refine List.mem_iff_getElem.mpr ⟨index, by simpa using hindex, ?_⟩
  rw [List.getElem_set_ne hplace]

theorem Adds.mem_of_explicit (h : store.Adds source path parent after outcome)
    {archive : LoadedArchive} (hmem : archive ∈ store.archives)
    (hexplicit : archive.autoLoaded = false) : archive ∈ after.archives := by
  cases h with
  | known => exact hmem
  | promoted position hpath hauto hparent =>
      refine mem_set_of_ne hmem ?_ _
      rintro rfl
      rw [hauto] at hexplicit
      cases hexplicit
  | opened => exact List.mem_append_left _ hmem
  | failed => exact hmem

/-- For the sake of another one an archive is open afterwards, or it could not be loaded. -/
theorem Adds.open_or_failed {requesting : String}
    (h : store.Adds source path (some requesting) after outcome) :
    source.normalize path ∈ after.paths ∧ outcome.summary.isSome = true ∨
      after = store ∧ outcome.summary = none ∧
        ∃ error, source.load (source.normalize path) = .error error := by
  cases h with
  | known archive hmem hpath hkept => exact .inl ⟨List.mem_map.mpr ⟨archive, hmem, hpath⟩, rfl⟩
  | promoted position hpath hauto hparent => cases hparent
  | opened contents hnew hload =>
      exact .inl ⟨List.mem_map.mpr
        ⟨_, List.mem_append_right _ (List.mem_singleton_self _), rfl⟩, rfl⟩
  | failed error hnew hload => exact .inr ⟨rfl, rfl, error, hload⟩

theorem Adds.eq_of_mem {requesting : String}
    (h : store.Adds source path (some requesting) after outcome)
    (hmem : source.normalize path ∈ store.paths) :
    after = store ∧ outcome.summary.isSome = true := by
  cases h with
  | known => exact ⟨rfl, rfl⟩
  | promoted position hpath hauto hparent => cases hparent
  | opened contents hnew => exact absurd hmem hnew
  | failed error hnew => exact absurd hmem hnew

/-- The answer to a wish for an archive's own sake says whether it stands for that now and did not
before. -/
theorem Adds.added_iff (h : store.Adds source path none after outcome) (hstore : store.WellFormed) :
    outcome.added = true ↔
      source.normalize path ∉ store.explicitPaths ∧
        source.normalize path ∈ after.explicitPaths := by
  cases h with
  | known archive hmem hpath hkept =>
      refine ⟨fun hadded => (by cases hadded), fun ⟨hbefore, hafter⟩ => absurd hafter hbefore⟩
  | promoted position hpath hauto hparent =>
      refine ⟨fun _ => ⟨fun hbefore => ?_, ?_⟩, fun _ => rfl⟩
      · rcases mem_explicitPaths.mp hbefore with ⟨archive, hmem, hexplicit, hsame⟩
        have hposition : store.archives.get position ∈ store.archives :=
          List.getElem_mem position.isLt
        rw [List.inj_on_of_nodup_map hstore.paths_nodup hmem hposition (hsame.trans hpath.symm),
          hauto] at hexplicit
        cases hexplicit
      · exact mem_explicitPaths.mpr ⟨_, List.mem_set position.isLt _, rfl, hpath⟩
  | opened contents hnew hloaded =>
      refine ⟨fun _ => ⟨fun hbefore => hnew ?_, ?_⟩, fun _ => rfl⟩
      · rcases mem_explicitPaths.mp hbefore with ⟨archive, hmem, _, hsame⟩
        exact List.mem_map.mpr ⟨archive, hmem, hsame⟩
      · exact mem_explicitPaths.mpr
          ⟨_, List.mem_append_right _ (List.mem_singleton_self _), rfl, rfl⟩
  | failed error hnew hfailed =>
      refine ⟨fun hadded => (by cases hadded), fun ⟨hbefore, hafter⟩ => absurd hafter hbefore⟩

section Loading

variable {loads : String → Prop}
  (hload : loads (source.normalize path) ↔
    ∃ contents, source.load (source.normalize path) = .ok contents)

include hload

/-- The answer to a wish for an archive's own sake describes the archive, if it can be loaded. -/
theorem Adds.summary_eq (h : store.Adds source path none after outcome)
    (hloads : loads (source.normalize path)) :
    ∃ archive ∈ after.archives, archive.path = source.normalize path ∧
      archive.autoLoaded = false ∧ outcome.summary = some archive.summary := by
  cases h with
  | known archive hmem hpath hkept =>
      refine ⟨archive, hmem, hpath, ?_, rfl⟩
      rw [Bool.eq_false_iff]
      exact fun hauto => Bool.false_ne_true (hkept hauto)
  | promoted position hpath hauto hparent =>
      exact ⟨_, List.mem_set position.isLt _, hpath, rfl, rfl⟩
  | opened contents hnew hloaded =>
      exact ⟨_, List.mem_append_right _ (List.mem_singleton_self _), rfl, rfl, rfl⟩
  | failed error hnew hfailed =>
      rcases hload.mp hloads with ⟨contents, hloaded⟩
      rw [hfailed] at hloaded
      cases hloaded

/-- One more path is open afterwards, if it can be loaded. -/
theorem Adds.mem_paths (h : store.Adds source path parent after outcome) (other : String) :
    other ∈ after.paths ↔
      other ∈ store.paths ∨ other = source.normalize path ∧ loads (source.normalize path) := by
  have hopen (hmem : source.normalize path ∈ store.paths) :
      other ∈ store.paths ↔
        other ∈ store.paths ∨ other = source.normalize path ∧ loads (source.normalize path) :=
    ⟨.inl, fun hother => hother.elim id fun hsame => hsame.1 ▸ hmem⟩
  cases h with
  | known archive hmem hpath hkept => exact hopen (List.mem_map.mpr ⟨archive, hmem, hpath⟩)
  | promoted position hpath hauto hparent =>
      have hmem : store.archives.get position ∈ store.archives := List.getElem_mem position.isLt
      rw [paths, paths_set_explicit]
      exact hopen (List.mem_map.mpr ⟨_, hmem, hpath⟩)
  | opened contents hnew hloaded =>
      rw [paths, List.map_append, List.mem_append, List.map_singleton, List.mem_singleton]
      have hloads := hload.mpr ⟨contents, hloaded⟩
      exact or_congr Iff.rfl ⟨fun hsame => ⟨hsame, hloads⟩, fun hsame => hsame.1⟩
  | failed error hnew hfailed =>
      refine ⟨.inl, fun hother => hother.elim id fun hsame => ?_⟩
      rcases hload.mp hsame.2 with ⟨contents, hloaded⟩
      rw [hfailed] at hloaded
      cases hloaded

/-- One more path stands for its own sake afterwards, if that was wished and it can be loaded. -/
theorem Adds.mem_explicitPaths_iff (h : store.Adds source path parent after outcome)
    (hknown : ∀ other ∈ store.paths, loads other) (other : String) :
    other ∈ after.explicitPaths ↔
      other ∈ store.explicitPaths ∨
        other = source.normalize path ∧ parent = none ∧ loads (source.normalize path) := by
  constructor
  · intro hafter
    rcases mem_explicitPaths.mp hafter with ⟨archive, hmem, hexplicit, hsame⟩
    have hold (hmem : archive ∈ store.archives) : other ∈ store.explicitPaths :=
      mem_explicitPaths.mpr ⟨archive, hmem, hexplicit, hsame⟩
    cases h with
    | known => exact .inl (hold hmem)
    | promoted position hpath hauto hparent =>
        rcases List.mem_or_eq_of_mem_set hmem with hmem | rfl
        · exact .inl (hold hmem)
        · refine .inr ⟨hsame.symm.trans hpath, hparent, hknown _ ?_⟩
          rw [← hpath]
          exact List.mem_map_of_mem (List.getElem_mem position.isLt)
    | opened contents hnew hloaded =>
        rcases List.mem_append.mp hmem with hmem | hlast
        · exact .inl (hold hmem)
        · rw [List.mem_singleton.mp hlast] at hsame hexplicit
          have hparent : parent = none :=
            Option.isNone_iff_eq_none.mp (Option.isSome_eq_false_iff.mp hexplicit)
          exact .inr ⟨hsame.symm, hparent, hload.mpr ⟨contents, hloaded⟩⟩
    | failed => exact .inl (hold hmem)
  · rintro (hbefore | ⟨rfl, rfl, hloads⟩)
    · rcases mem_explicitPaths.mp hbefore with ⟨archive, hmem, hexplicit, hsame⟩
      exact mem_explicitPaths.mpr ⟨archive, h.mem_of_explicit hmem hexplicit, hexplicit, hsame⟩
    · rcases h.summary_eq hload hloads with ⟨archive, hmem, hpath, hexplicit, _⟩
      exact mem_explicitPaths.mpr ⟨archive, hmem, hexplicit, hpath⟩

end Loading

end Store
end AssemblyBrowser
