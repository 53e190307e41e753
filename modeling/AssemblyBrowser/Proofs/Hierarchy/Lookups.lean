import AssemblyBrowser.Hierarchy.BaseTypes
import AssemblyBrowser.Proofs.Addresses.BaseTypes
import AssemblyBrowser.Proofs.Opening

/-!
# Looking up the definition of a name

To look up a name an archive may be opened, at most one, and then it stands
behind those that were open before. What is found stands in the store by then.
A lookup that is repeated in a later store opens nothing any more.
-/

namespace AssemblyBrowser

namespace Store

/-- The archives of the store are the first ones of the other. -/
def GrowsTo (store after : Store) : Prop := store.archives <+: after.archives

variable {store middle after : Store} {source : ArchiveSource}

theorem GrowsTo.refl (store : Store) : store.GrowsTo store := List.prefix_refl _

theorem GrowsTo.trans (h : store.GrowsTo middle) (hafter : middle.GrowsTo after) :
    store.GrowsTo after := List.IsPrefix.trans h hafter

theorem GrowsTo.mem_paths (h : store.GrowsTo after) {path : String} (hmem : path ∈ store.paths) :
    path ∈ after.paths :=
  (h.map LoadedArchive.path).subset hmem

theorem GrowsTo.mem_modules (h : store.GrowsTo after) {place : PlacedModule}
    (hmem : place ∈ store.modules) : place ∈ after.modules := by
  rcases List.mem_flatMap.mp hmem with ⟨archive, harchive, hplace⟩
  exact Store.mem_modules (h.subset harchive) hplace

theorem find?_of_mem (source : ArchiveSource) (hafter : after.WellFormed)
    (h : store.GrowsTo after) {place : PlacedModule}
    (hplace : place ∈ store.modules) :
    ∃ archive ∈ store.archives, store.find? source place.archivePath = some archive ∧
      after.find? source place.archivePath = some archive := by
  rcases List.mem_flatMap.mp hplace with ⟨archive, harchive, hmodule⟩
  have hat {larger : Store} (hnodup : larger.paths.Nodup) (hmem : archive ∈ larger.archives) :
      larger.find? source place.archivePath = some archive := by
    have hfound : larger.archiveOf source archive.path = _ := archiveOf_path hnodup hmem
    rw [LoadedArchive.archivePath_of_mem_modules hmodule]
    unfold archiveOf at hfound
    split at hfound
    case h_1 found hfind =>
      rw [hfind, Except.ok.inj hfound]
    case h_2 => cases hfound
  have hnodup : store.paths.Nodup :=
    (h.map LoadedArchive.path).sublist.nodup hafter.paths_nodup
  exact ⟨archive, harchive, hat hnodup harchive, hat hafter.paths_nodup (h.subset harchive)⟩

theorem at?_of_growsTo (h : store.GrowsTo after) {path : String} {archive : LoadedArchive}
    (hfound : store.at? path = some archive) : after.at? path = some archive := by
  rcases h with ⟨new, hnew⟩
  unfold at? at hfound ⊢
  rw [← hnew, List.find?_append, hfound]
  rfl

/-- An archive that a path leads to is found also later, if none was opened under another text of
its path. -/
theorem find?_of_growsTo (h : store.GrowsTo after)
    (hnew : ∀ path ∈ after.paths, path ∈ store.paths ∨ source.normalize path = path)
    {path : String} {archive : LoadedArchive} (hfound : store.find? source path = some archive) :
    after.find? source path = some archive := by
  unfold find? at hfound ⊢
  cases hat : store.at? path with
  | some found =>
      rw [hat] at hfound
      rw [at?_of_growsTo h hat]
      exact hfound
  | none =>
      rw [hat] at hfound
      cases hopened : after.at? path with
      | none => exact at?_of_growsTo h hfound
      | some other =>
          have hother : other.path = path := eq_of_beq (List.find?_some hopened :)
          have hmem : path ∈ after.paths :=
            hother ▸ List.mem_map_of_mem (List.mem_of_find?_eq_some hopened)
          rcases hnew path hmem with hold | hcanonical
          · rcases List.mem_map.mp hold with ⟨older, holder, hpath⟩
            exact absurd (beq_iff_eq.mpr hpath) (List.find?_eq_none.mp hat older holder)
          · have hfound : store.at? (source.normalize path) = some archive := hfound
            rw [hcanonical, hat] at hfound
            cases hfound

theorem defines_of_subjectOf {address : NodeAddress} {subject : PlacedType}
    (h : store.subjectOf source address = .ok subject) : store.Defines subject := by
  rcases Outcome.bind_eq_ok.mp h with ⟨place, hplace, htype⟩
  unfold typeOf at htype
  split at htype
  case h_1 definition hdefinition =>
    cases htype
    refine ⟨mem_modules_of_placeOf hplace, ?_⟩
    unfold CodeModule.type? byRow at hdefinition
    split at hdefinition
    · exact Array.mem_of_getElem? hdefinition
    · cases hdefinition
  case h_2 => cases htype

theorem subjectOf_of_growsTo (h : store.GrowsTo after)
    (hnew : ∀ path ∈ after.paths, path ∈ store.paths ∨ source.normalize path = path)
    {address : NodeAddress} {subject : PlacedType}
    (hsubject : store.subjectOf source address = .ok subject) :
    after.subjectOf source address = .ok subject := by
  rcases Outcome.bind_eq_ok.mp hsubject with ⟨place, hplace, htype⟩
  rcases Outcome.bind_eq_ok.mp hplace with ⟨archive, harchive, hmodule⟩
  have hfind : store.find? source address.archivePath = some archive := by
    unfold archiveOf at harchive
    split at harchive
    case h_1 found hfound => rw [hfound, Except.ok.inj harchive]
    case h_2 => cases harchive
  refine Outcome.bind_eq_ok.mpr ⟨place, Outcome.bind_eq_ok.mpr ⟨archive, ?_, hmodule⟩, htype⟩
  unfold archiveOf
  rw [find?_of_growsTo h hnew hfind]

end Store

namespace Resolver

/-!
## What following a reference does to the store
-/

/-- The store after a reference was followed: the same as before, or with one more archive, which
was opened for the reference. -/
inductive Opens (resolver : Resolver) (source : ArchiveSource) (store : Store) : Store → Prop where
  | nothing : Opens resolver source store store
  | archive (path parent : String) (contents : ArchiveContents)
      (hopen : resolver.autoLoad = true) (hfile : source.isFile path = true)
      (hnew : source.normalize path ∉ store.paths)
      (hload : source.load (source.normalize path) = .ok contents) :
      Opens resolver source store
        { archives := store.archives ++
            [(LoadedArchive.unopened (source.normalize path) (some parent)).withHandle contents] }

variable {resolver : Resolver} {source : ArchiveSource} {store after later : Store}

theorem Opens.growsTo (h : resolver.Opens source store after) : store.GrowsTo after := by
  cases h with
  | nothing => exact Store.GrowsTo.refl store
  | archive => exact List.prefix_append _ _

theorem Opens.wellFormed (h : resolver.Opens source store after) (hstore : store.WellFormed) :
    after.WellFormed := by
  cases h with
  | nothing => exact hstore
  | archive path parent contents hopen hfile hnew hload =>
      exact Store.wellFormed_of_step (.opened path (some parent) contents hnew hload) hstore

theorem Opens.eq_of_length (h : resolver.Opens source store after)
    (hlength : after.archives.length = store.archives.length) : after = store := by
  cases h with
  | nothing => rfl
  | archive => simp at hlength

theorem Opens.new_paths (h : resolver.Opens source store after)
    (hcanonical : ∀ path, source.normalize (source.normalize path) = source.normalize path) :
    ∀ path ∈ after.paths, path ∈ store.paths ∨ source.normalize path = path := by
  cases h with
  | nothing => exact fun path hpath => .inl hpath
  | archive candidate parent contents hopen hfile hnew hload =>
      intro path hpath
      rw [Store.paths, List.map_append] at hpath
      rcases List.mem_append.mp hpath with hold | hlast
      · exact .inl hold
      · rw [List.mem_singleton.mp hlast]
        exact .inr (hcanonical candidate)

theorem Opens.eq_of_closed (h : resolver.Opens source store after)
    (hclosed : resolver.autoLoad = false) : after = store := by
  cases h with
  | nothing => rfl
  | archive path parent contents hopen => simp [hclosed] at hopen

/-!
## Probing
-/

/-- Probing opens the first candidate that it can, unless that one is open already. -/
theorem probe_opens (hopen : resolver.autoLoad = true) (hstore : store.WellFormed)
    (requesting : LoadedArchive) (candidates : List String) :
    resolver.Opens source store (probe source requesting candidates store).1 ∧
      ∀ place ∈ (probe source requesting candidates store).2,
        place ∈ (probe source requesting candidates store).1.modules := by
  induction candidates with
  | nil => exact ⟨.nothing, fun place hplace => by cases hplace⟩
  | cons candidate rest ih =>
      rw [probe]
      cases hfile : source.isFile candidate with
      | false => exact ih
      | true =>
          have hfound (opened : Store) : ∀ place ∈ (do
              let archive ← opened.find? source candidate
              (archive.place none).toOption), place ∈ opened.modules := by
            intro place hplace
            rcases Option.bind_eq_some_iff.mp hplace with ⟨archive, harchive, hmodule⟩
            exact Store.mem_modules (Store.mem_archives_of_find? harchive)
              (LoadedArchive.mem_modules_of_place (Outcome.eq_ok_of_toOption hmodule))
          have hadds := store.adds_add hstore source candidate (some requesting.path)
          rcases hadd : store.add source candidate (some requesting.path) with ⟨opened, outcome⟩
          rw [hadd] at hadds
          dsimp only at hadds ⊢
          cases hadds with
          | known => exact ⟨.nothing, hfound store⟩
          | promoted position hpath hauto hparent => cases hparent
          | opened contents hnew hload =>
              exact ⟨.archive candidate requesting.path contents hopen hfile hnew hload, hfound _⟩
          | failed => exact ih

/-- A candidate that was opened is open, and one that failed to load fails again. So probing once
more opens nothing, whatever else was opened meanwhile. -/
theorem probe_again (hstore : store.WellFormed) (hlater : later.WellFormed)
    (requesting : LoadedArchive) (candidates : List String)
    (hgrows : (probe source requesting candidates store).1.GrowsTo later) :
    (probe source requesting candidates later).1 = later := by
  induction candidates with
  | nil => rfl
  | cons candidate rest ih =>
      rw [probe] at hgrows ⊢
      cases hfile : source.isFile candidate with
      | false =>
          rw [hfile] at hgrows
          exact ih hgrows
      | true =>
          rw [hfile] at hgrows
          have hadds := store.adds_add hstore source candidate (some requesting.path)
          have hagain := later.adds_add hlater source candidate (some requesting.path)
          rcases hadd : store.add source candidate (some requesting.path) with ⟨opened, outcome⟩
          rcases hadd' : later.add source candidate (some requesting.path) with ⟨opened', outcome'⟩
          rw [hadd] at hadds hgrows
          rw [hadd'] at hagain
          simp only [↓reduceIte] at hadds hagain hgrows ⊢
          rcases hadds.open_or_failed with ⟨hopen, hsome⟩ | ⟨rfl, hnone, error, hfailed⟩
          · rw [if_pos hsome] at hgrows
            rcases hagain.eq_of_mem (hgrows.mem_paths hopen) with ⟨rfl, hsome'⟩
            rw [if_pos hsome']
          · rw [hnone] at hgrows
            -- The candidate was opened meanwhile, or it fails once more.
            cases hagain with
            | known => rfl
            | promoted position hpath hauto hparent => cases hparent
            | opened contents hnew hload =>
                rw [hfailed] at hload
                cases hload
            | failed => exact ih hgrows

/-!
## References
-/

theorem loaded?_of_growsTo (hgrows : store.GrowsTo later) {name : String} {place : PlacedModule}
    (h : loaded? store name = some place) : loaded? later name = some place := by
  rcases hgrows with ⟨new, hnew⟩
  unfold loaded? at h ⊢
  rw [← hnew, List.findSome?_append, h]
  rfl

/-- What an archive refers to is a module that is open by then. -/
theorem resolve_opens (resolver : Resolver) (source : ArchiveSource) (hstore : store.WellFormed)
    {requesting : LoadedArchive} (harchive : requesting ∈ store.archives) (name : String) :
    resolver.Opens source store (resolver.resolve source store requesting name).1 ∧
      ∀ place ∈ (resolver.resolve source store requesting name).2,
        place ∈ (resolver.resolve source store requesting name).1.modules := by
  cases hopen : resolver.autoLoad with
  | false =>
      rcases resolve_closed source hopen harchive name with ⟨hsame, hplaces⟩
      rw [hsame]
      exact ⟨.nothing, hplaces⟩
  | true =>
      unfold resolve
      cases hloaded : loaded? store name with
      | some found =>
          refine ⟨.nothing, fun place hplace => ?_⟩
          rw [← Option.some.inj hplace]
          exact mem_modules_of_loaded? hloaded
      | none =>
          cases hbeside : beside? requesting name with
          | some found =>
              refine ⟨.nothing, fun place hplace => ?_⟩
              rw [← Option.some.inj hplace]
              exact mem_modules_of_beside? harchive hbeside
          | none =>
              rw [hopen]
              exact probe_opens hopen hstore requesting _

theorem resolve_again (hstore : store.WellFormed) (hlater : later.WellFormed)
    (requesting : LoadedArchive) (name : String)
    (hgrows : (resolver.resolve source store requesting name).1.GrowsTo later) :
    (resolver.resolve source later requesting name).1 = later := by
  unfold resolve at hgrows ⊢
  cases hagain : loaded? later name with
  | some found => rfl
  | none =>
      cases hbeside : beside? requesting name with
      | some found => rfl
      | none =>
          cases hopen : resolver.autoLoad with
          | false => rfl
          | true =>
              cases hloaded : loaded? store name with
              | some found =>
                  -- What was loaded stays loaded.
                  rw [hloaded] at hgrows
                  rw [loaded?_of_growsTo hgrows hloaded] at hagain
                  cases hagain
              | none =>
                  rw [hloaded, hbeside, hopen] at hgrows
                  exact probe_again hstore hlater requesting _ hgrows

/-!
## Names
-/

theorem findType?_eq_none_iff {fullName : String} :
    store.findType? fullName = none ↔
      ∀ place ∈ store.modules, place.findType? fullName = none :=
  List.findSome?_eq_none_iff

theorem definition_opens (resolver : Resolver) (source : ArchiveSource) (hstore : store.WellFormed)
    (origin : PlacedModule) (name : TypeName) :
    resolver.Opens source store (resolver.definition source store origin name).1 := by
  unfold definition
  cases name.scope with
  | none => exact .nothing
  | some assembly =>
      cases hrequesting : store.find? source origin.archivePath with
      | none => exact .nothing
      | some requesting =>
          exact (resolve_opens resolver source hstore (Store.mem_archives_of_find? hrequesting)
            assembly).1

/-- What is found is a definition of that name in a module that is open by then. -/
theorem definition_found (resolver : Resolver) (source : ArchiveSource) (hstore : store.WellFormed)
    {origin : PlacedModule} (horigin : origin ∈ store.modules) (name : TypeName)
    {found : PlacedType} (h : (resolver.definition source store origin name).2 = some found) :
    found.place ∈ (resolver.definition source store origin name).1.modules ∧
      found.place.findType? name.fullName = some found := by
  have hin {place : PlacedModule} (hfound : place.findType? name.fullName = some found) :
      found.place = place := by
    rcases Option.map_eq_some_iff.mp hfound with ⟨definition, _, rfl⟩
    rfl
  have hanywhere {after : Store} {first : Option PlacedType}
      (hfirst : first = some found →
        ∃ place ∈ after.modules, place.findType? name.fullName = some found)
      (hfound : (first <|> after.findType? name.fullName) = some found) :
      found.place ∈ after.modules ∧ found.place.findType? name.fullName = some found := by
    have hplace : ∃ place ∈ after.modules, place.findType? name.fullName = some found := by
      cases first with
      | some other => exact hfirst hfound
      | none => exact List.exists_of_findSome?_eq_some hfound
    rcases hplace with ⟨place, hmem, hplace⟩
    rw [hin hplace]
    exact ⟨hmem, hplace⟩
  unfold definition at h ⊢
  cases hscope : name.scope with
  | none =>
      rw [hscope] at h
      exact hanywhere (fun hfirst => ⟨origin, horigin, hfirst⟩) h
  | some assembly =>
      rw [hscope] at h
      cases hrequesting : store.find? source origin.archivePath with
      | none =>
          rw [hrequesting] at h
          cases h
      | some requesting =>
          rw [hrequesting] at h
          refine hanywhere (fun hfirst => ?_) h
          rcases Option.bind_eq_some_iff.mp hfirst with ⟨place, hplace, hfound⟩
          exact ⟨place, (resolve_opens resolver source hstore
            (Store.mem_archives_of_find? hrequesting) assembly).2 place hplace, hfound⟩

theorem findType?_of_definition_eq_none (hstore : store.WellFormed) {origin : PlacedModule}
    (horigin : origin ∈ store.modules) (name : TypeName)
    (h : (resolver.definition source store origin name).2 = none) :
    (resolver.definition source store origin name).1.findType? name.fullName = none := by
  rcases Store.find?_of_mem source hstore (.refl store) horigin with
    ⟨requesting, _, hrequesting, _⟩
  unfold definition at h ⊢
  cases hscope : name.scope with
  | none =>
      rw [hscope] at h
      exact ((Option.orElse_eq_none _ _).mp h).2
  | some assembly =>
      rw [hscope, hrequesting] at h
      rw [hrequesting]
      exact ((Option.orElse_eq_none _ _).mp h).2

/-- Nothing is opened when a name is looked up again in a later store. -/
theorem definition_again (hstore : store.WellFormed) (hlater : later.WellFormed)
    {origin : PlacedModule} (horigin : origin ∈ store.modules) (name : TypeName)
    (hgrows : (resolver.definition source store origin name).1.GrowsTo later) :
    (resolver.definition source later origin name).1 = later := by
  have hall : store.GrowsTo later :=
    (definition_opens resolver source hstore origin name).growsTo.trans hgrows
  rcases Store.find?_of_mem source hlater hall horigin with
    ⟨requesting, _, hbefore, hafter⟩
  unfold definition at hgrows ⊢
  cases hscope : name.scope with
  | none => rfl
  | some assembly =>
      rw [hscope, hbefore] at hgrows
      rw [hafter]
      exact resolve_again hstore hlater requesting assembly hgrows

end Resolver
end AssemblyBrowser
