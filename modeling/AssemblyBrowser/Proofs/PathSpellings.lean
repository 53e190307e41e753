import AssemblyBrowser.Proofs.Files.Canonical
import AssemblyBrowser.Proofs.Opening

/-!
# Spellings of a path

A path is opened under its canonical form; to look it up or to close it, the path
as it stands is tried as well. The three mean the same archive because no archive
goes by a path that is not canonical. Nothing but the way in which paths were
made canonical so far ensures that: it must have been the same all the time, and
must leave canonical paths as they are.
-/

namespace AssemblyBrowser

theorem LoadedArchive.path_promoted (archive : LoadedArchive) (path : String) :
    (archive.promoted path).path = path := by
  unfold promoted
  split <;> rfl

namespace Store

/-- Every archive goes by a canonical path. -/
def Canonical (normalize : String → String) (store : Store) : Prop :=
  ∀ archive ∈ store.archives, normalize archive.path = archive.path

variable {store after : Store} {source : ArchiveSource} {path : String}

theorem Canonical.mono {normalize : String → String} (h : store.Canonical normalize)
    (hsubset : after.archives ⊆ store.archives) : after.Canonical normalize :=
  fun archive hmem => h archive (hsubset hmem)

/-- One command keeps the paths canonical. -/
theorem canonical_of_step {command : StoreCommand} {changed : Bool}
    (hidempotent : ∀ path, source.normalize (source.normalize path) = source.normalize path)
    (hstep : Step source store command after changed) (h : store.Canonical source.normalize) :
    after.Canonical source.normalize := by
  cases hstep with
  | idle => exact h
  | opened path parent contents hnew hload =>
      intro archive hmem
      rcases List.mem_append.mp hmem with hold | hlast
      · exact h archive hold
      · rw [List.mem_singleton.mp hlast]
        exact hidempotent path
  | promoted path position hpath hauto =>
      intro archive hmem
      rcases List.mem_or_eq_of_mem_set hmem with hold | hpromoted
      · exact h archive hold
      · rw [hpromoted, LoadedArchive.path_promoted]
        exact h _ (List.getElem_mem position.isLt)
  | closed path position hpath => exact h.mono (List.eraseIdx_sublist _ _).subset

/-!
## Looking up and closing
-/

/-- Looking a path up finds what stands under its canonical form. -/
theorem find?_eq_at? (h : store.Canonical source.normalize) (path : String) :
    store.find? source path = store.at? (source.normalize path) := by
  unfold find?
  cases hraw : store.at? path with
  | none => rfl
  | some archive =>
      have hpath : archive.path = path := by simpa using List.find?_some hraw
      have hcanonical := h archive (List.mem_of_find?_eq_some hraw)
      rw [hpath] at hcanonical
      rw [hcanonical, hraw]
      rfl

/-- Closing a path takes out what stands under its canonical form, and nothing else. -/
theorem remove_eq (hpaths : store.paths.Nodup) (h : store.Canonical source.normalize)
    {archive : LoadedArchive} {front back : List LoadedArchive}
    (hsplit : store.archives = front ++ archive :: back)
    (hpath : archive.path = source.normalize path) :
    store.remove source path = ({ archives := front ++ back }, some archive) := by
  have hmem : archive ∈ store.archives := by simp [hsplit]
  unfold remove
  dsimp only
  split
  case h_1 position hfind =>
    have hmeant := (List.findFinIdx?_eq_some_iff.mp hfind).1
    rw [Bool.or_eq_true, beq_iff_eq, beq_iff_eq] at hmeant
    have hposition : store.archives[position] ∈ store.archives := List.getElem_mem position.isLt
    have hsame : store.archives[position].path = archive.path := by
      rw [hpath]
      rcases hmeant with hraw | hnormal
      · rw [← h _ hposition, hraw]
      · exact hnormal
    have harchive : store.archives.get position = archive :=
      List.inj_on_of_nodup_map hpaths hposition hmem hsame
    have hplace : position.val = front.length := by
      refine (List.getElem?_inj position.isLt (.of_map _ hpaths)).mp ?_
      rw [List.getElem?_eq_getElem position.isLt, ← List.get_eq_getElem, harchive, hsplit]
      simp
    rw [harchive, hplace, hsplit]
    simp [List.eraseIdx_append_of_length_le]
  case h_2 hfind =>
    have hnot := List.findFinIdx?_eq_none_iff.mp hfind archive hmem
    rw [hpath, beq_self_eq_true, Bool.or_true] at hnot
    exact absurd rfl hnot

theorem path_not_mem_of_split (hpaths : store.paths.Nodup) {archive : LoadedArchive}
    {front back : List LoadedArchive} (hsplit : store.archives = front ++ archive :: back) :
    archive.path ∉ ({ archives := front ++ back } : Store).paths := by
  rw [paths, hsplit, List.map_append, List.map_cons] at hpaths
  rw [paths, List.map_append]
  exact (List.nodup_middle.mp hpaths).notMem

/-!
## Opening
-/

section Opening

variable {parent : Option String} {outcome : AddOutcome}

/-- An archive that a path was opened for has the contents that it had before or, if it was not
open, those that were loaded. -/
theorem Adds.exists_open (h : store.Adds source path parent after outcome)
    (hpaths : store.paths.Nodup) {summary : ArchiveSummary}
    (hsummary : outcome.summary = some summary) :
    ∃ archive ∈ after.archives, archive.path = source.normalize path ∧
      archive.summary = summary ∧
      archive.handle = (store.at? (source.normalize path)).elim
        (source.load (source.normalize path)).toOption LoadedArchive.handle := by
  cases h with
  | known archive hmem hpath hkept =>
      refine ⟨archive, hmem, hpath, Option.some.inj hsummary, ?_⟩
      rw [← hpath, at?_path hpaths hmem]
      rfl
  | promoted position hpath hauto hparent =>
      refine ⟨_, List.mem_set position.isLt _, hpath, Option.some.inj hsummary, ?_⟩
      have hmem : store.archives.get position ∈ store.archives := List.getElem_mem position.isLt
      rw [← hpath, at?_path hpaths hmem]
      rfl
  | opened contents hnew hload =>
      refine ⟨_, List.mem_append_right _ (List.mem_singleton_self _), rfl,
        Option.some.inj hsummary, ?_⟩
      rw [at?_eq_none_iff.mpr hnew, hload]
      rfl
  | failed => cases hsummary

/-- Opening what is open already puts no archive into the store. -/
theorem Adds.paths_eq (h : store.Adds source path parent after outcome)
    (hmem : source.normalize path ∈ store.paths) : after.paths = store.paths := by
  cases h with
  | known => rfl
  | promoted position => exact paths_set_explicit store position
  | opened contents hnew => exact absurd hmem hnew
  | failed error hnew => exact absurd hmem hnew

end Opening
end Store

namespace Worker

variable {normalize : String → String}

theorem canonical_run (hidempotent : ∀ path, normalize (normalize path) = normalize path)
    {worker : Worker} {events : List WorkerEvent}
    (hfixed : ∀ event ∈ events, event.normalize = normalize)
    (h : worker.store.Canonical normalize) : (worker.run events).store.Canonical normalize := by
  induction events generalizing worker with
  | nil => exact h
  | cons event rest ih =>
      refine ih (fun other hmem => hfixed other (List.mem_cons_of_mem _ hmem)) ?_
      have hevent : event.source.normalize = normalize := hfixed event List.mem_cons_self
      subst hevent
      exact Store.canonical_of_step hidempotent (worker.step_store event) h

theorem store_add (worker : Worker) (source : ArchiveSource) (path : String)
    (parent : Option String) :
    worker.store.add source path parent =
      ((worker.add source path parent).1.store, (worker.add source path parent).2) := by
  simp only [add, store_publish]

theorem store_remove {worker : Worker} {source : ArchiveSource} {path : String} {store : Store}
    {archive : LoadedArchive} (h : worker.store.remove source path = (store, some archive)) :
    (worker.remove source path).1.store = store ∧ (worker.remove source path).2 = true := by
  simp only [remove, h, store_publish, and_self]

/-- A path and another spelling of it mean the same archive: after one was opened, opening the
other puts no second archive into the store, looking it up finds the archive that was opened, and
closing it closes that archive and no other one. -/
theorem spellings_interchangeable
    (hidempotent : ∀ path, normalize (normalize path) = normalize path)
    (sessionFile : Option String) (files : FileSystem) {events : List WorkerEvent}
    (hfixed : ∀ event ∈ events, event.normalize = normalize)
    {source : ArchiveSource} (hsource : source.normalize = normalize)
    {first second : String} (hsame : normalize first = normalize second)
    {parent : Option String} {opened : Worker} {outcome : AddOutcome} {summary : ArchiveSummary}
    (hadd : ((start sessionFile files).run events).add source first parent = (opened, outcome))
    (hopen : outcome.summary = some summary) :
    ∃ archive front back, opened.store.archives = front ++ archive :: back ∧
      archive.path = normalize first ∧ archive.summary = summary ∧
      archive.handle =
        (((start sessionFile files).run events).store.at? (normalize first)).elim
          (source.load (normalize first)).toOption LoadedArchive.handle ∧
      ∀ later : ArchiveSource, later.normalize = normalize →
        (∀ parent, (opened.add later second parent).1.store.paths = opened.store.paths) ∧
        opened.store.find? later second = some archive ∧
        (opened.remove later second).2 = true ∧
        (opened.remove later second).1.store.archives = front ++ back ∧
        (opened.remove later second).1.store.find? later first = none ∧
        (opened.remove later second).1.store.find? later second = none := by
  subst hsource
  have hwellFormed : ((start sessionFile files).run events).store.WellFormed :=
    wellFormed_run events Store.empty_wellFormed
  have hcanonical : ((start sessionFile files).run events).store.Canonical source.normalize :=
    canonical_run hidempotent hfixed fun _ h => absurd h List.not_mem_nil
  generalize (start sessionFile files).run events = before at hadd hwellFormed hcanonical
  have hstore : before.store.add source first parent = (opened.store, outcome) := by
    rw [store_add, hadd]
  have hadds := Store.adds_add hwellFormed source first parent
  rw [hstore] at hadds
  have hopened := hadds.wellFormed hwellFormed
  have hkept : opened.store.Canonical source.normalize :=
    Store.canonical_of_step hidempotent (Store.add_step hstore) hcanonical
  obtain ⟨archive, hmem, hpath, hsummary, hhandle⟩ :=
    hadds.exists_open hwellFormed.paths_nodup hopen
  -- the archive stands in one place, whatever spelling leads there
  obtain ⟨front, back, hsplit⟩ := List.append_of_mem hmem
  refine ⟨archive, front, back, hsplit, hpath, hsummary, hhandle, fun later hlater => ?_⟩
  have hsecond : archive.path = later.normalize second := by rw [hpath, hlater, hsame]
  rw [← hlater] at hkept
  have hremove := Store.remove_eq hopened.paths_nodup hkept hsplit hsecond
  obtain ⟨hclosed, hremoved⟩ := store_remove hremove
  have hout := Store.path_not_mem_of_split hopened.paths_nodup hsplit
  have hrest : ({ archives := front ++ back } : Store).Canonical later.normalize :=
    hkept.mono (hsplit ▸ ((List.sublist_cons_self archive back).append_left front).subset)
  refine ⟨fun parent => ?_, ?_, hremoved, ?_, ?_, ?_⟩
  · have hagain := Store.adds_add hopened later second parent
    rw [store_add] at hagain
    refine hagain.paths_eq ?_
    rw [← hsecond]
    exact List.mem_map_of_mem hmem
  · rw [Store.find?_eq_at? hkept, ← hsecond]
    exact Store.at?_path hopened.paths_nodup hmem
  · rw [hclosed]
  · rw [hclosed, Store.find?_eq_at? hrest, hlater, ← hpath]
    exact Store.at?_eq_none_iff.mpr hout
  · rw [hclosed, Store.find?_eq_at? hrest, ← hsecond]
    exact Store.at?_eq_none_iff.mpr hout

/-- A directory with two libraries. -/
def libraryDirectory : FileSystem where
  entries := [(["w"], .directory), (["w", "a.dll"], .file #[]), (["w", "b.dll"], .file #[])]

/-- The libraries, each of which is read as an empty module. -/
def librarySource : ArchiveSource := .ofFiles emptyModules libraryDirectory

/-- The worker after the second library was opened. -/
def oneLibrary : Worker :=
  (start none libraryDirectory).run
    [⟨libraryDirectory.normalize, emptyModules, libraryDirectory, .add "/w/b.dll" none⟩]

/-- The worker after the first library was opened too, under a spelling that is not canonical. -/
def bothLibraries : Worker := (oneLibrary.add librarySource "/w/./a.dll" none).1

/-- Another spelling means the first of the two libraries. -/
theorem spellings_interchangeable_library :
    (oneLibrary.add librarySource "/w/./a.dll" none).2.summary.isSome = true ∧
      libraryDirectory.normalize "/w/./a.dll" = libraryDirectory.normalize "/w/../w/a.dll" ∧
      ∃ archive front back, bothLibraries.store.archives = front ++ archive :: back ∧
        archive.path = "/w/a.dll" ∧
        (bothLibraries.add librarySource "/w/../w/a.dll" none).1.store.paths =
          ["/w/b.dll", "/w/a.dll"] ∧
        bothLibraries.store.find? librarySource "/w/../w/a.dll" = some archive ∧
        (bothLibraries.remove librarySource "/w/../w/a.dll").1.store.archives = front ++ back ∧
        (bothLibraries.remove librarySource "/w/../w/a.dll").1.store.find? librarySource
          "/w/./a.dll" = none := by
  have hopen : (oneLibrary.add librarySource "/w/./a.dll" none).2.summary.isSome = true := by
    decide +kernel
  have hsame : libraryDirectory.normalize "/w/./a.dll" =
      libraryDirectory.normalize "/w/../w/a.dll" := by
    decide +kernel
  have hpaths : bothLibraries.store.paths = ["/w/b.dll", "/w/a.dll"] := by decide +kernel
  have hnormal : libraryDirectory.normalize "/w/./a.dll" = "/w/a.dll" := by decide +kernel
  have hsource : librarySource.normalize = libraryDirectory.normalize := rfl
  obtain ⟨summary, hsummary⟩ := Option.isSome_iff_exists.mp hopen
  have hidempotent (path : String) :
      libraryDirectory.normalize (libraryDirectory.normalize path) =
        libraryDirectory.normalize path :=
    FileSystem.normalize_normalize (by decide +kernel) path
  obtain ⟨archive, front, back, hsplit, hpath, -, -, hlater⟩ :=
    spellings_interchangeable hidempotent none libraryDirectory (by simp) hsource hsame rfl hsummary
  obtain ⟨hagain, hfound, -, hclosed, hnone, -⟩ := hlater librarySource rfl
  exact ⟨hopen, hsame, archive, front, back, hsplit, hpath.trans hnormal,
    (hagain none).trans hpaths, hfound, hclosed, hnone⟩

end Worker
end AssemblyBrowser
