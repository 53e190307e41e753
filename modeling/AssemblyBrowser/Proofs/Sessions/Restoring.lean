import AssemblyBrowser.Proofs.Opening
import AssemblyBrowser.Proofs.Sessions.Law

/-!
# Restoring a session

The archives of a session are opened one after another, and each that could be
opened makes the worker write the session file anew. So while a session is being
restored its file is as it was, or it lists what is open by then.
-/

namespace AssemblyBrowser

theorem Worker.saveSession_eq {worker : Worker} {path : String}
    (h : worker.sessionFile = some path) :
    worker.saveSession =
      { worker with
        files := (Session.save worker.files path worker.store.explicitPaths).toOption.getD
          worker.files } := by
  rcases worker with ⟨sessionFile, files, store⟩
  cases h
  unfold saveSession
  dsimp only
  cases Session.save files path store.explicitPaths with
  | ok files => rfl
  | error error => rfl

namespace Navigator

variable {navigator : Navigator} {sessionFile path : String} {paths : List String}

/-- Whether the archive of a path can be loaded. -/
def Loads (navigator : Navigator) (path : String) : Prop :=
  ∃ contents, navigator.source.load (navigator.source.normalize path) = .ok contents

/-!
## One archive
-/

/-- The files once the session was saved with one more path, if that is possible. -/
def filesWith (navigator : Navigator) (sessionFile path : String) : FileSystem :=
  (Session.save navigator.files sessionFile
    (navigator.store.explicitPaths ++ [navigator.source.normalize path])).toOption.getD
      navigator.files

/-- What opening one archive of a session does: nothing if it is open already or cannot be loaded,
and else the session is saved with it. -/
inductive Reopens (sessionFile : String) (navigator : Navigator) (path : String) :
    Navigator → Prop where
  | known (hopen : navigator.source.normalize path ∈ navigator.store.explicitPaths) :
      Reopens sessionFile navigator path navigator
  | failed (hload : ¬ navigator.Loads path) : Reopens sessionFile navigator path navigator
  | opened (contents : ArchiveContents)
      (hnew : navigator.source.normalize path ∉ navigator.store.paths)
      (hload : navigator.source.load (navigator.source.normalize path) = .ok contents) :
      Reopens sessionFile navigator path
        { navigator with
          files := navigator.filesWith sessionFile path
          store := { archives := navigator.store.archives ++
            [(LoadedArchive.unopened (navigator.source.normalize path) none).withHandle
              contents] } }

theorem reopens_addArchive (hsession : navigator.settings.sessionFile = some sessionFile)
    (hstore : navigator.store.WellFormed)
    (hexplicit : ∀ archive ∈ navigator.store.archives, archive.autoLoaded = false)
    (path : String) : Reopens sessionFile navigator path (navigator.addArchive path).1 := by
  have hadds := navigator.store.adds_add hstore navigator.source path none
  rcases hadd : navigator.store.add navigator.source path none with ⟨store, outcome⟩
  have hafter : (navigator.addArchive path).1 =
      navigator.withWorker (navigator.worker.publish store (outcome.added && true)) := by
    simp only [addArchive, add, Worker.add, worker, hadd]
    rfl
  rw [hadd] at hadds
  rw [hafter]
  cases hadds with
  | known archive hmem hpath hkept =>
      refine .known ?_
      rw [← hpath]
      exact Store.mem_explicitPaths.mpr ⟨archive, hmem, hexplicit archive hmem, rfl⟩
  | promoted position hpath hauto hparent =>
      have hkept : (navigator.store.archives.get position).autoLoaded = false :=
        hexplicit _ (List.getElem_mem position.isLt)
      rw [hkept] at hauto
      cases hauto
  | opened contents hnew hload =>
      have hreopens : Reopens sessionFile navigator path _ := .opened contents hnew hload
      have hpaths := navigator.store.explicitPaths_opened (navigator.source.normalize path) none
        contents
      show Reopens sessionFile navigator path (navigator.withWorker (Worker.saveSession _))
      rw [Worker.saveSession_eq hsession, hpaths]
      exact hreopens
  | failed error hnew hfailed =>
      refine .failed ?_
      rintro ⟨contents, hload⟩
      rw [hfailed] at hload
      cases hload

theorem Reopens.mem_explicitPaths_iff {after : Navigator}
    (h : Reopens sessionFile navigator path after) (other : String) :
    other ∈ after.store.explicitPaths ↔ other ∈ navigator.store.explicitPaths ∨
      other = navigator.source.normalize path ∧ navigator.Loads path := by
  cases h with
  | known hopen =>
      constructor
      · exact .inl
      · rintro (hbefore | ⟨rfl, _⟩)
        · exact hbefore
        · exact hopen
  | failed hload =>
      constructor
      · exact .inl
      · rintro (hbefore | ⟨_, hloads⟩)
        · exact hbefore
        · exact absurd hloads hload
  | opened contents hnew hload =>
      rw [Store.explicitPaths_opened, List.mem_append]
      refine or_congr Iff.rfl ⟨fun hother => ⟨List.mem_singleton.mp hother, contents, hload⟩, ?_⟩
      rintro ⟨rfl, _⟩
      exact List.mem_singleton_self _

/-!
## Some archives
-/

/-- What holds while a session is restored that was begun among some files: all archives are open
for their own sake, and the files are as they were or those that were written with the session of
these archives. -/
structure Restoring (sessionFile : String) (begun : FileSystem) (navigator : Navigator) :
    Prop where
  session : navigator.settings.sessionFile = some sessionFile
  wellFormed : navigator.store.WellFormed
  explicit : ∀ archive ∈ navigator.store.archives, archive.autoLoaded = false
  files : navigator.files = begun ∨ ∃ before : FileSystem,
    before.writeThrough sessionFile
      (Utf8.encode (Session.text navigator.store.explicitPaths)) = .ok navigator.files
  unsaved : navigator.store.explicitPaths = [] → navigator.files = begun

theorem save_eq_ok {files after : FileSystem} {path : String} {paths : List String} :
    Session.save files path paths = .ok after ↔
      files.writeThrough path (Utf8.encode (Session.text paths)) = .ok after := by
  unfold Session.save
  cases files.writeThrough path (Utf8.encode (Session.text paths)) with
  | ok written => simp [Except.mapError]
  | error fault => simp [Except.mapError]

theorem Restoring.reopens {begun : FileSystem} {after : Navigator}
    (h : Restoring sessionFile begun navigator) (hreopens : Reopens sessionFile navigator path after) :
    Restoring sessionFile begun after := by
  cases hreopens with
  | known => exact h
  | failed => exact h
  | opened contents hnew hload =>
      have hpaths := navigator.store.explicitPaths_opened (navigator.source.normalize path) none
        contents
      constructor
      · exact h.session
      · exact Store.wellFormed_of_step (.opened path none contents hnew hload) h.wellFormed
      · intro archive hmem
        rcases List.mem_append.mp hmem with hold | hlast
        · exact h.explicit archive hold
        · rw [List.mem_singleton.mp hlast]
          rfl
      · unfold filesWith
        rw [hpaths]
        cases hsave : Session.save navigator.files sessionFile
            (navigator.store.explicitPaths ++ [navigator.source.normalize path]) with
        | ok files => exact .inr ⟨navigator.files, save_eq_ok.mp hsave⟩
        | error error =>
            rcases h.files with hbegun | ⟨before, hwritten⟩
            · exact .inl hbegun
            · -- A session that was written once can be written again.
              rcases FileSystem.writeThrough_again hwritten
                (Utf8.encode (Session.text
                  (navigator.store.explicitPaths ++ [navigator.source.normalize path]))) with
                ⟨later, hlater⟩
              rw [save_eq_ok.mpr hlater] at hsave
              cases hsave
      · intro hnone
        rw [hpaths] at hnone
        exact absurd hnone (by simp)

theorem Restoring.addAll {begun : FileSystem} (h : Restoring sessionFile begun navigator)
    (paths : List String) : Restoring sessionFile begun (navigator.addAll paths).1 := by
  induction paths generalizing navigator with
  | nil => exact h
  | cons path rest ih =>
      exact ih (h.reopens (reopens_addArchive h.session h.wellFormed h.explicit path))

/-- The paths that are open after some were opened for their own sake are those that were before,
and those that could be loaded when it was their turn. -/
theorem Restoring.mem_explicitPaths_iff {begun : FileSystem}
    (h : Restoring sessionFile begun navigator) (paths : List String) (other : String) :
    other ∈ (navigator.addAll paths).1.store.explicitPaths ↔
      other ∈ navigator.store.explicitPaths ∨ ∃ index path, paths[index]? = some path ∧
        other = (navigator.addAll (paths.take index)).1.source.normalize path ∧
          (navigator.addAll (paths.take index)).1.Loads path := by
  induction paths generalizing navigator with
  | nil => simp [Navigator.addAll]
  | cons first rest ih =>
      have hreopens := reopens_addArchive h.session h.wellFormed h.explicit first
      have hrest := ih (h.reopens hreopens)
      show other ∈ ((navigator.addArchive first).1.addAll rest).1.store.explicitPaths ↔ _
      rw [hrest, hreopens.mem_explicitPaths_iff, or_assoc]
      refine or_congr Iff.rfl ?_
      constructor
      · rintro (⟨hother, hloads⟩ | ⟨index, path, hpath, hother, hloads⟩)
        · exact ⟨0, first, rfl, hother, hloads⟩
        · exact ⟨index + 1, path, hpath, hother, hloads⟩
      · rintro ⟨index, path, hpath, hother, hloads⟩
        cases index with
        | zero =>
            cases hpath
            exact .inl ⟨hother, hloads⟩
        | succ index => exact .inr ⟨index, path, hpath, hother, hloads⟩

/-- While the session of a file is restored, and once that is done, the file lists the same paths
as before or just the archives that are open by then. These are the paths replayed so far that
could be loaded when it was their turn, and as long as there are none the file is as it was. -/
theorem restoring_keeps_loaded (hsession : navigator.settings.sessionFile = some sessionFile)
    (hfresh : navigator.store = {})
    (hload : Session.load navigator.files sessionFile = .ok paths) (count : Nat) :
    let after := (navigator.addAll (paths.take count)).1
    let turn (index : Nat) := (navigator.addAll (paths.take index)).1
    (∀ other, other ∈ after.store.explicitPaths ↔ ∃ index path,
      index < count ∧ paths[index]? = some path ∧
        other = (turn index).source.normalize path ∧ (turn index).Loads path) ∧
      (∃ listed, Session.load after.files sessionFile = .ok listed ∧
        (listed = paths ∨ listed = after.store.explicitPaths) ∧
          (after.store.explicitPaths = [] → listed = paths)) ∧
      (paths.length ≤ count → navigator.restoreSession.1 = after) := by
  intro after turn
  have hstart : Restoring sessionFile navigator.files navigator := by
    constructor
    · exact hsession
    · rw [hfresh]
      exact Store.empty_wellFormed
    · rw [hfresh]
      exact fun _ h => absurd h List.not_mem_nil
    · exact .inl rfl
    · exact fun _ => rfl
  have hafter : Restoring sessionFile navigator.files after := hstart.addAll _
  refine ⟨?_, ?_, ?_⟩
  · intro other
    have hnone : other ∉ navigator.store.explicitPaths := by
      rw [hfresh]
      exact List.not_mem_nil
    rw [hstart.mem_explicitPaths_iff, or_iff_right hnone]
    constructor
    · rintro ⟨index, path, hpath, hopened⟩
      rw [List.getElem?_take] at hpath
      split at hpath
      case isTrue hindex =>
        rw [List.take_take, Nat.min_eq_left (Nat.le_of_lt hindex)] at hopened
        exact ⟨index, path, hindex, hpath, hopened⟩
      case isFalse => cases hpath
    · rintro ⟨index, path, hindex, hpath, hopened⟩
      refine ⟨index, path, ?_, ?_⟩
      · rw [List.getElem?_take, if_pos hindex, hpath]
      · rw [List.take_take, Nat.min_eq_left (Nat.le_of_lt hindex)]
        exact hopened
  · rcases hafter.files with hbegun | ⟨before, hwritten⟩
    · exact ⟨paths, by rw [hbegun, hload], .inl rfl, fun _ => rfl⟩
    · have hread := Session.load_of_read (FileSystem.read_of_writeThrough hwritten)
      refine ⟨_, hread, .inr rfl, fun hnone => ?_⟩
      rw [hafter.unsaved hnone, hload] at hread
      exact (Except.ok.inj hread).symm
  · intro hcount
    show navigator.restoreSession.1 = (navigator.addAll (paths.take count)).1
    rw [List.take_of_length_le hcount]
    simp only [restoreSession, hsession, hload]

/-- A loader that finds a module in every file that is there. -/
def presentFiles : ModuleLoader where
  ofFile files path :=
    if files.isFile path then .ok { name := path, runtimeVersion := "" } else .error .invalidJson
  ofBytes _ _ := .error .invalidJson

def sampleSession : List String := ["/gone.dll", "/b.dll", "/c.dll"]

/-- A navigator with a session of which one archive is gone. -/
def beforeRestoring : Navigator where
  settings := { sessionFile := some "/s.json", loader := presentFiles }
  files :=
    { entries :=
        [(["s.json"], .file (Utf8.encode (Session.text sampleSession))),
          (["b.dll"], .file #[]), (["c.dll"], .file #[])] }

theorem load_beforeRestoring :
    Session.load beforeRestoring.files "/s.json" = .ok sampleSession :=
  Outcome.eq_ok_of_toOption (by decide +kernel)

/-- The archive that was opened second is listed when the restoring is interrupted after it. -/
theorem restoring_keeps_loaded_interrupted :
    ∃ listed,
      Session.load (beforeRestoring.addAll (sampleSession.take 2)).1.files "/s.json" =
          .ok listed ∧ "/b.dll" ∈ listed := by
  have hsession : beforeRestoring.settings.sessionFile = some "/s.json" := rfl
  rcases restoring_keeps_loaded hsession rfl load_beforeRestoring 2 with
    ⟨hopen, ⟨listed, hlisted, hpaths, _⟩, _⟩
  refine ⟨listed, hlisted, ?_⟩
  rcases hpaths with rfl | rfl
  · decide
  · refine (hopen "/b.dll").mpr ⟨1, "/b.dll", by decide, rfl, by decide +kernel, ?_⟩
    exact Outcome.exists_eq_ok (by decide +kernel)

/-- An archive that is gone is not listed any more as soon as another one was opened, and one whose
turn has not come yet is not listed either. -/
theorem restoring_drops_entries :
    Session.load beforeRestoring.files "/s.json" = .ok sampleSession ∧
      Session.load (beforeRestoring.addAll (sampleSession.take 2)).1.files "/s.json" =
        .ok ["/b.dll"] ∧
      Session.load beforeRestoring.restoreSession.1.files "/s.json" =
        .ok ["/b.dll", "/c.dll"] := by
  refine ⟨load_beforeRestoring, ?_, ?_⟩
  · exact Outcome.eq_ok_of_toOption (by decide +kernel)
  · exact Outcome.eq_ok_of_toOption (by decide +kernel)

end Navigator
end AssemblyBrowser
