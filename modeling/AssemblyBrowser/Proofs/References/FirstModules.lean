import AssemblyBrowser.Proofs.Containers.Bundles
import AssemblyBrowser.Proofs.Files.Canonical
import AssemblyBrowser.Proofs.Opening
import AssemblyBrowser.Proofs.References.Probing
import AssemblyBrowser.Proofs.SearchOrder

/-!
# The first module that probing finds

Probing goes through the candidates for an assembly and stays with the first one
that can be opened at all. A candidate that is no file, or does not load, leaves
the store as it was. So the first candidate that is a module is found, unless one
that is a container stands in front of it: that one is opened, has no module of
its own, and the candidates behind it are not looked at any more.
-/

namespace AssemblyBrowser

namespace Store

variable {store : Store} {source : ArchiveSource} {path : String}

/-- What is in the archive of a path: in the one that is open, or else in the file. -/
def contentsAt? (store : Store) (source : ArchiveSource) (path : String) :
    Option ArchiveContents :=
  match store.at? (source.normalize path) with
  | some archive => archive.handle
  | none => (source.load (source.normalize path)).toOption

theorem contentsAt?_of_mem (hstore : store.WellFormed) {archive : LoadedArchive}
    (hmem : archive ∈ store.archives) (hpath : archive.path = source.normalize path) :
    store.contentsAt? source path = archive.handle := by
  unfold contentsAt?
  rw [← hpath, at?_path hstore.paths_nodup hmem]

theorem contentsAt?_of_new (hnew : source.normalize path ∉ store.paths) :
    store.contentsAt? source path = (source.load (source.normalize path)).toOption := by
  unfold contentsAt?
  rw [at?_eq_none_iff.mpr hnew]

/-- An archive that is put behind the others is found under its path if that is a new one. -/
theorem at?_append_new (store : Store) (new : LoadedArchive) (path : String) :
    Store.at? { archives := store.archives ++ [new] } path =
      (store.at? path).or (if new.path = path then some new else none) := by
  unfold at?
  rw [List.find?_append, List.find?_singleton]
  simp only [beq_iff_eq]

theorem path_of_at? {archive : LoadedArchive} (h : store.at? path = some archive) :
    archive.path = path := by
  unfold at? at h
  have hsame := List.find?_some h
  exact beq_iff_eq.mp hsame

end Store

namespace Resolver

variable {resolver : Resolver} {source : ArchiveSource} {store : Store}
  {requesting : LoadedArchive} {name candidate : String}

/-!
## Opening one candidate
-/

/-- A candidate is a file, and its archive has these contents. -/
structure LoadsAs (source : ArchiveSource) (store : Store) (candidate : String)
    (contents : ArchiveContents) : Prop where
  isFile : source.isFile candidate = true
  contentsAt : store.contentsAt? source candidate = some contents

/-- Whether a candidate can be opened. -/
def canOpen (source : ArchiveSource) (store : Store) (candidate : String) : Bool :=
  source.isFile candidate && (store.contentsAt? source candidate).isSome

theorem canOpen_iff :
    canOpen source store candidate = true ↔
      ∃ contents, LoadsAs source store candidate contents := by
  rw [canOpen, Bool.and_eq_true, Option.isSome_iff_exists]
  constructor
  · rintro ⟨hfile, contents, hcontents⟩
    exact ⟨contents, hfile, hcontents⟩
  · rintro ⟨contents, h⟩
    exact ⟨h.isFile, contents, h.contentsAt⟩

/-- What a candidate that was opened is taken for: the module of the archive of its path. -/
def taken (source : ArchiveSource) (store : Store) (requesting : LoadedArchive)
    (candidate : String) : Option PlacedModule := do
  let archive ← (store.add source candidate (some requesting.path)).1.find? source candidate
  (archive.place none).toOption

/-- For a candidate that can be opened the answer is a summary, otherwise the store stays as it
is. -/
theorem add_candidate (source : ArchiveSource) (hstore : store.WellFormed)
    (requesting : LoadedArchive) (candidate : String) :
    match store.contentsAt? source candidate with
    | some _ => (store.add source candidate (some requesting.path)).2.summary.isSome = true
    | none => store.add source candidate (some requesting.path) =
        (store, { added := false, summary := none }) := by
  have hadds := store.adds_add hstore source candidate (some requesting.path)
  rcases hadd : store.add source candidate (some requesting.path) with ⟨after, outcome⟩
  rw [hadd] at hadds
  cases hadds with
  | known archive hmem hpath hkept =>
      rw [Store.contentsAt?_of_mem hstore hmem hpath]
      rcases Option.isSome_iff_exists.mp
        (hstore.archive_wellFormed archive hmem).handle_isSome with ⟨contents, hcontents⟩
      rw [hcontents]
      rfl
  | promoted position hpath hauto hparent => cases hparent
  | opened contents hnew hload =>
      rw [Store.contentsAt?_of_new hnew, hload]
      rfl
  | failed error hnew hload =>
      rw [Store.contentsAt?_of_new hnew, hload]
      rfl

/-- Probing takes the first candidate that can be opened for what it is, and no other. -/
theorem probe_eq (hstore : store.WellFormed) (requesting : LoadedArchive)
    (candidates : List String) :
    (probe source requesting candidates store).2 =
      (candidates.find? (canOpen source store)).bind (taken source store requesting) := by
  induction candidates with
  | nil => rfl
  | cons candidate rest ih =>
      rw [probe, List.find?_cons]
      have hadd := add_candidate source hstore requesting candidate
      cases hfile : source.isFile candidate with
      | false =>
          simp only [canOpen, hfile, Bool.false_and]
          exact ih
      | true =>
          cases hcontents : store.contentsAt? source candidate with
          | none =>
              rw [hcontents] at hadd
              simp only [canOpen, hfile, hcontents, hadd, Option.isSome_none, Bool.and_false]
              exact ih
          | some contents =>
              rw [hcontents] at hadd
              simp only [canOpen, hfile, hcontents, hadd, Option.isSome_some, Bool.and_self]
              rfl

/-!
## What a candidate is taken for
-/

/-- The archive of a candidate goes by its canonical path and has its contents, unless another
archive goes by the path of the candidate as it stands. -/
theorem find?_candidate (requesting : LoadedArchive) (hstore : store.WellFormed)
    {contents : ArchiveContents}
    (hcontents : store.contentsAt? source candidate = some contents)
    (hplain : store.at? candidate = none ∨ source.normalize candidate = candidate) :
    ∃ archive, (store.add source candidate (some requesting.path)).1.find? source candidate =
        some archive ∧
      archive.path = source.normalize candidate ∧ archive.handle = some contents := by
  have hadds := store.adds_add hstore source candidate (some requesting.path)
  rcases hadd : store.add source candidate (some requesting.path) with ⟨after, outcome⟩
  rw [hadd] at hadds
  dsimp only at hadds ⊢
  cases hadds with
  | known archive hmem hpath hkept =>
      rw [Store.contentsAt?_of_mem hstore hmem hpath] at hcontents
      refine ⟨archive, ?_, hpath, hcontents⟩
      have hat : store.at? (source.normalize candidate) = some archive := by
        rw [← hpath]
        exact Store.at?_path hstore.paths_nodup hmem
      unfold Store.find?
      rcases hplain with hnone | hsame
      · rw [hnone, hat]
        rfl
      · rw [hsame] at hat ⊢
        rw [hat]
        rfl
  | promoted position hpath hauto hparent => cases hparent
  | opened loaded hnew hload =>
      rw [Store.contentsAt?_of_new hnew, hload] at hcontents
      obtain rfl := Option.some.inj hcontents
      refine ⟨(LoadedArchive.unopened (source.normalize candidate)
        (some requesting.path)).withHandle loaded, ?_, rfl, rfl⟩
      unfold Store.find?
      rw [Store.at?_append_new, Store.at?_append_new, Store.at?_eq_none_iff.mpr hnew]
      rcases hplain with hnone | hsame
      · rw [hnone]
        by_cases hsame : source.normalize candidate = candidate
        · simp [LoadedArchive.withHandle, LoadedArchive.unopened, hsame]
        · simp [LoadedArchive.withHandle, LoadedArchive.unopened, hsame]
      · rw [hsame] at hnew ⊢
        simp [LoadedArchive.withHandle, LoadedArchive.unopened, Store.at?_eq_none_iff.mpr hnew]
  | failed error hnew hload =>
      rw [Store.contentsAt?_of_new hnew, hload] at hcontents
      cases hcontents

/-- A module is taken for what it is. -/
theorem taken_codeModule (hstore : store.WellFormed) {code : CodeModule}
    (h : LoadsAs source store candidate (.codeModule code))
    (hplain : store.at? candidate = none ∨ source.normalize candidate = candidate) :
    taken source store requesting candidate =
      some { archivePath := source.normalize candidate, containerPath := none, code } := by
  rcases find?_candidate requesting hstore h.contentsAt hplain with
    ⟨archive, hfind, hpath, hhandle⟩
  unfold taken
  rw [hfind, Option.bind_eq_bind, Option.bind_some]
  simp only [LoadedArchive.place, LoadedArchive.codeModule, hhandle, hpath]
  rfl

/-- A container is opened, but no module is taken from it. -/
theorem taken_container (requesting : LoadedArchive) (hstore : store.WellFormed)
    {container : Container}
    (h : LoadsAs source store candidate (.container container))
    (hplain : store.at? candidate = none ∨ source.normalize candidate = candidate) :
    taken source store requesting candidate = none := by
  rcases find?_candidate requesting hstore h.contentsAt hplain with
    ⟨archive, hfind, hpath, hhandle⟩
  unfold taken
  rw [hfind, Option.bind_eq_bind, Option.bind_some]
  simp only [LoadedArchive.place, LoadedArchive.codeModule, hhandle]
  rfl

/-- Where an archive goes by the path of the candidate as it stands, its module is taken. -/
theorem taken_of_at? (hstore : store.WellFormed) {archive : LoadedArchive}
    (hat : store.at? candidate = some archive) :
    taken source store requesting candidate = (archive.place none).toOption := by
  have hadds := store.adds_add hstore source candidate (some requesting.path)
  have hfind :
      (store.add source candidate (some requesting.path)).1.at? candidate = some archive := by
    rcases hadd : store.add source candidate (some requesting.path) with ⟨after, outcome⟩
    rw [hadd] at hadds
    dsimp only at hadds ⊢
    cases hadds with
    | known => exact hat
    | promoted position hpath hauto hparent => cases hparent
    | opened loaded hnew hload =>
        rw [Store.at?_append_new, hat]
        rfl
    | failed => exact hat
  unfold taken Store.find?
  rw [hfind]
  rfl

/-!
## What probing finds
-/

/-- What is taken for a candidate lies at its canonical path, unless another archive goes by the
path of the candidate as it stands. -/
theorem archivePath_of_taken_other (hstore : store.WellFormed) {archive : LoadedArchive}
    (hat : store.at? candidate = some archive) {place : PlacedModule}
    (h : taken source store requesting candidate = some place) : place.archivePath = candidate := by
  rw [taken_of_at? hstore hat] at h
  rw [LoadedArchive.archivePath_of_place (Outcome.eq_ok_of_toOption h), Store.path_of_at? hat]

theorem resolve_eq_probe (hauto : resolver.autoLoad = true) (hloaded : loaded? store name = none)
    (hbeside : beside? requesting name = none) :
    resolver.resolve source store requesting name =
      probe source requesting (resolver.candidates requesting name) store := by
  unfold resolve
  rw [hloaded, hbeside]
  simp only [hauto]
  rfl

/-- When the first candidate that is a module is found: exactly if no candidate in front of it is a
container, and no other archive goes by the candidate's path as it stands. -/
theorem first_module_found_iff (resolver : Resolver) (source : ArchiveSource) (store : Store)
    (requesting : LoadedArchive) (name : String) (hstore : store.WellFormed)
    (hcanonical : ∀ path, source.normalize (source.normalize path) = source.normalize path)
    (hauto : resolver.autoLoad = true) (hloaded : loaded? store name = none)
    (hbeside : beside? requesting name = none) {before after : List String} {candidate : String}
    {code : CodeModule}
    (hcandidates : resolver.candidates requesting name = before ++ candidate :: after)
    (hmodule : LoadsAs source store candidate (.codeModule code))
    (hfirst : ∀ earlier ∈ before, ∀ other, ¬ LoadsAs source store earlier (.codeModule other)) :
    (resolver.resolve source store requesting name).2 =
        some { archivePath := source.normalize candidate, containerPath := none, code } ↔
      (∀ earlier ∈ before, ∀ container, ¬ LoadsAs source store earlier (.container container)) ∧
        (store.at? candidate = none ∨ source.normalize candidate = candidate) := by
  rw [resolve_eq_probe hauto hloaded hbeside, probe_eq hstore, hcandidates, List.find?_append]
  have hcan : canOpen source store candidate = true := canOpen_iff.mpr ⟨_, hmodule⟩
  cases hsearch : before.find? (canOpen source store) with
  | none =>
      rw [List.find?_cons_of_pos hcan]
      have hclosed : ∀ earlier ∈ before, ∀ contents, ¬ LoadsAs source store earlier contents :=
        fun earlier hearlier contents h =>
          List.find?_eq_none.mp hsearch earlier hearlier (canOpen_iff.mpr ⟨contents, h⟩)
      have hrest : ∀ earlier ∈ before, ∀ container,
          ¬ LoadsAs source store earlier (.container container) :=
        fun earlier hearlier container => hclosed earlier hearlier _
      constructor
      · intro htaken
        refine ⟨hrest, ?_⟩
        cases hat : store.at? candidate with
        | none => exact .inl rfl
        | some archive => exact .inr (archivePath_of_taken_other hstore hat htaken)
      · rintro ⟨_, hplain⟩
        exact taken_codeModule hstore hmodule hplain
  | some earlier =>
      have hmem := List.mem_of_find?_eq_some hsearch
      rcases canOpen_iff.mp (List.find?_some hsearch) with ⟨contents, hcontents⟩
      cases contents with
      | codeModule other => exact absurd hcontents (hfirst earlier hmem other)
      | container container =>
          constructor
          · intro htaken
            -- An archive that goes by the path of the container as it stands would be a module.
            cases hat : store.at? earlier with
            | none =>
                have hnone := taken_container requesting hstore hcontents (.inl hat)
                cases hnone.symm.trans htaken
            | some archive =>
                have hpath := archivePath_of_taken_other hstore hat htaken
                have hsame : source.normalize earlier = earlier := by
                  rw [← hpath]
                  exact hcanonical candidate
                have hnone := taken_container requesting hstore hcontents
                  (.inr hsame)
                cases hnone.symm.trans htaken
          · rintro ⟨hnone, _⟩
            exact absurd hcontents (hnone earlier hmem container)

/-- An archive that refers to an assembly which is not beside it. -/
def applicationArchive : LoadedArchive :=
  (LoadedArchive.unopened "/w/app/App.dll" none).withHandle
    (.codeModule { name := "App.dll", runtimeVersion := "" })

def applicationStore : Store := { archives := [applicationArchive] }

/-- The library that is meant stands in a directory of its own. Beside the archive is an executable
of its name. -/
def beside (executable : List UInt8) : FileSystem where
  entries :=
    [(["w"], .directory), (["w", "app"], .directory), (["w", "app", "App.dll"], .file #[]),
      (["w", "app", "Lib.exe"], .file executable.toArray), (["w", "lib"], .directory),
      (["w", "lib", "Lib.dll"], .file #[])]

def libraryModule : CodeModule where
  name := "Lib.dll"
  assembly := some { name := "Lib", version := ⟨1, 0, 0, 0⟩ }
  runtimeVersion := ""

/-- A loader for which only files with the extension of libraries are modules. -/
def onlyLibraries : ModuleLoader where
  ofFile _ path :=
    if Path.hasExtension path ["dll"] then .ok libraryModule else .error (.other path)
  ofBytes _ _ := .error (.panic .zeroDivisor)

def besideSource (executable : List UInt8) : ArchiveSource :=
  .ofFiles onlyLibraries (beside executable)

def libraryResolver : Resolver := { searchPaths := ["/w/lib"] }

theorem applicationStore_wellFormed : applicationStore.WellFormed := by
  refine ⟨by decide, ?_⟩
  intro archive hmem
  rw [List.mem_singleton.mp hmem]
  exact LoadedArchive.opened_wellFormed none (ArchiveContents.codeModule_standAt _ _)

/-- The library is there, if the paths of files are canonical as they stand. -/
theorem loadsAs_library {executable : List UInt8}
    (hfile : (besideSource executable).isFile "/w/lib/Lib.dll" = true)
    (hpath : (besideSource executable).normalize "/w/lib/Lib.dll" = "/w/lib/Lib.dll") :
    LoadsAs (besideSource executable) applicationStore "/w/lib/Lib.dll"
      (.codeModule libraryModule) := by
  refine ⟨hfile, ?_⟩
  rw [Store.contentsAt?_of_new (by rw [hpath]; decide), hpath]
  have hlibrary : Path.hasExtension "/w/lib/Lib.dll" ["dll"] = true := by decide +kernel
  have hmodule : Path.hasExtension "/w/lib/Lib.dll" ArchiveContents.moduleExtensions = true := by
    decide +kernel
  simp only [ArchiveSource.load, ArchiveContents.load, besideSource, ArchiveSource.ofFiles,
    onlyLibraries, hlibrary, hmodule, if_true]
  rfl

theorem first_module_found_iff_library :
    (resolve libraryResolver (besideSource []) applicationStore applicationArchive "Lib").2 =
        some { archivePath := (besideSource []).normalize "/w/lib/Lib.dll", containerPath := none,
               code := libraryModule } := by
  have hnormalize (path : String) : (besideSource []).normalize ((besideSource []).normalize path) =
      (besideSource []).normalize path :=
    (beside []).normalize_normalize (FileSystem.Reached.root (beside [])).locate_placeText path
  have hclosed : ∀ earlier ∈ ["/w/app/Lib.dll", "/w/app/Lib.exe"],
      canOpen (besideSource []) applicationStore earlier = false := by
    decide +kernel
  have hnone : ∀ earlier ∈ ["/w/app/Lib.dll", "/w/app/Lib.exe"], ∀ contents,
      ¬ LoadsAs (besideSource []) applicationStore earlier contents := by
    intro earlier hearlier contents hcontents
    have hopen := canOpen_iff.mpr ⟨contents, hcontents⟩
    rw [hclosed earlier hearlier] at hopen
    cases hopen
  have hcandidates : libraryResolver.candidates applicationArchive "Lib" =
      ["/w/app/Lib.dll", "/w/app/Lib.exe"] ++ "/w/lib/Lib.dll" :: ["/w/lib/Lib.exe"] := by
    decide +kernel
  refine (first_module_found_iff libraryResolver (besideSource []) applicationStore
    applicationArchive "Lib" applicationStore_wellFormed hnormalize rfl rfl rfl hcandidates
    (loadsAs_library (by decide +kernel) (by decide +kernel)) ?_).mpr ⟨?_, ?_⟩
  · exact fun earlier hearlier other => hnone earlier hearlier _
  · exact fun earlier hearlier container => hnone earlier hearlier _
  · exact .inl (by rfl)

/-- The smallest executable with a bundle in it, which has no files. -/
def emptyBundle : List UInt8 :=
  BundleDraft.bytes id
    { host := [0x4D, 0x5A], majorVersion := 1, minorVersion := 0, id := "", locations := [],
      flags := 0, files := [] }

def isContainer : ArchiveContents → Bool
  | .codeModule _ => false
  | .container _ => true

/-- With a bundle of its name beside the archive the library is not found, though it is the only
candidate that is a module. -/
theorem bundle_hides_library :
    applicationStore.WellFormed ∧ loaded? applicationStore "Lib" = none ∧
      beside? applicationArchive "Lib" = none ∧
      libraryResolver.candidates applicationArchive "Lib" =
        ["/w/app/Lib.dll", "/w/app/Lib.exe", "/w/lib/Lib.dll", "/w/lib/Lib.exe"] ∧
      LoadsAs (besideSource emptyBundle) applicationStore "/w/lib/Lib.dll"
        (.codeModule libraryModule) ∧
      (∀ earlier ∈ ["/w/app/Lib.dll", "/w/app/Lib.exe"], ∀ other,
        ¬ LoadsAs (besideSource emptyBundle) applicationStore earlier (.codeModule other)) ∧
      (resolve libraryResolver (besideSource emptyBundle) applicationStore applicationArchive
        "Lib").2 = none := by
  refine ⟨applicationStore_wellFormed, rfl, rfl, by decide +kernel,
    loadsAs_library (by decide +kernel) (by decide +kernel), ?_, ?_⟩
  · have hearlier : ∀ earlier ∈ ["/w/app/Lib.dll", "/w/app/Lib.exe"],
        (besideSource emptyBundle).isFile earlier = false ∨
          ∃ contents ∈ applicationStore.contentsAt? (besideSource emptyBundle) earlier,
            isContainer contents = true := by
      decide +kernel
    rintro earlier hmem other ⟨hfile, hcontents⟩
    rcases hearlier earlier hmem with hno | ⟨contents, hin, hcontainer⟩
    · rw [hno] at hfile
      cases hfile
    · rw [hcontents] at hin
      cases hin
      cases hcontainer
  · have hnone : (resolve libraryResolver (besideSource emptyBundle) applicationStore
        applicationArchive "Lib").2.isNone = true := by
      decide +kernel
    exact Option.isNone_iff_eq_none.mp hnone

end Resolver
end AssemblyBrowser
