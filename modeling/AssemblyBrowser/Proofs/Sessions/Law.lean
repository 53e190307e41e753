import AssemblyBrowser.Navigator.Basic
import AssemblyBrowser.Proofs.Files.Writing
import AssemblyBrowser.Proofs.Sessions.Texts
import AssemblyBrowser.Proofs.StoreInvariant

/-!
# The session file

The worker writes the session file only when it takes a command to have changed
which archives stand for their own sake. It misses no change, so once there was
one the file lists just these archives, and restoring from it opens them again.
-/

namespace AssemblyBrowser

namespace Store

/-!
## Archives that stand for their own sake
-/

theorem explicitPaths_sublist (store : Store) : store.explicitPaths.Sublist store.paths :=
  List.filter_sublist.map LoadedArchive.path

theorem explicitPaths_opened (store : Store) (path : String) (parent : Option String)
    (contents : ArchiveContents) :
    ({ archives := store.archives ++
        [(LoadedArchive.unopened path parent).withHandle contents] } : Store).explicitPaths =
      store.explicitPaths ++ (if parent.isNone then [path] else []) := by
  unfold explicitPaths
  rw [List.filter_append, List.map_append]
  cases parent with
  | none => rfl
  | some parent => rfl

/-- Taking out an archive that was opened for another one leaves those alone that stand for
their own sake. -/
theorem explicitPaths_eraseIdx (store : Store) (position : Fin store.archives.length)
    (hauto : (store.archives.get position).autoLoaded = true) :
    ({ archives := store.archives.eraseIdx position } : Store).explicitPaths =
      store.explicitPaths := by
  have hsplit : store.archives = store.archives.take position ++
      store.archives.get position :: store.archives.drop (position + 1) := by
    rw [List.get_eq_getElem, ← List.drop_eq_getElem_cons position.isLt, List.take_append_drop]
  have hout : (store.archives.get position :: store.archives.drop (position + 1)).filter
      (fun archive => !archive.autoLoaded) =
        (store.archives.drop (position + 1)).filter (fun archive => !archive.autoLoaded) := by
    rw [List.filter_cons_of_neg]
    rw [hauto]
    exact Bool.false_ne_true
  unfold explicitPaths
  dsimp only
  rw [List.eraseIdx_eq_take_drop_succ, List.filter_append, ← hout, ← List.filter_append, ← hsplit]

/-- Opening an archive changes nothing among those that stand for their own sake, unless it says
that it does. -/
theorem explicitPaths_add {store after : Store} {source : ArchiveSource} {path : String}
    {parent : Option String} {outcome : AddOutcome}
    (h : store.add source path parent = (after, outcome))
    (hflag : (outcome.added && parent.isNone) = false) :
    after.explicitPaths = store.explicitPaths := by
  have hstep := add_step h
  generalize hadded : outcome.added = added at hstep hflag
  cases hstep with
  | idle => rfl
  | opened path parent contents hnew hload =>
      rw [Bool.true_and] at hflag
      rw [explicitPaths_opened, hflag]
      exact List.append_nil _
  | promoted => cases hflag

theorem explicitPaths_remove {store after : Store} {source : ArchiveSource} {path : String}
    {removed : LoadedArchive} (h : store.remove source path = (after, some removed))
    (hauto : removed.autoLoaded = true) : after.explicitPaths = store.explicitPaths := by
  simp only [Store.remove] at h
  split at h
  case h_1 position hfind =>
    cases h
    exact explicitPaths_eraseIdx store position hauto
  case h_2 => cases h

end Store

/-!
## Saving
-/

namespace Worker

/-- Whether the session file lists the archives that stand for their own sake, in order. -/
def SessionHolds (worker : Worker) (path : String) : Prop :=
  worker.files.read path = .ok (Utf8.encode (Session.text worker.store.explicitPaths))

/-- What the worker does with the session file: it leaves the files alone if the archives that
stand for their own sake are the same as before, or it saves the session. -/
inductive Saves (before : Worker) : Worker → Prop where
  | skipped (store : Store) (h : store.explicitPaths = before.store.explicitPaths) :
      Saves before { before with store }
  | saved (store : Store) : Saves before { before with store }.saveSession

theorem saves_publish {worker : Worker} {store : Store} {flag : Bool}
    (h : flag = false → store.explicitPaths = worker.store.explicitPaths) :
    Saves worker (worker.publish store flag) := by
  unfold publish
  cases flag with
  | false => exact .skipped store (h rfl)
  | true => exact .saved store

theorem saves_add (worker : Worker) (source : ArchiveSource) (path : String)
    (parent : Option String) : Saves worker (worker.add source path parent).1 := by
  rcases hadd : worker.store.add source path parent with ⟨store, outcome⟩
  simp only [add, hadd]
  exact saves_publish (Store.explicitPaths_add hadd)

theorem saves_remove (worker : Worker) (source : ArchiveSource) (path : String) :
    Saves worker (worker.remove source path).1 := by
  rcases hremove : worker.store.remove source path with ⟨store, removed⟩
  cases removed with
  | none =>
      simp only [remove, hremove]
      exact .skipped worker.store rfl
  | some removed =>
      simp only [remove, hremove]
      apply saves_publish
      intro hflag
      exact Store.explicitPaths_remove hremove (by simpa using hflag)

theorem saves_step (worker : Worker) (event : WorkerEvent) :
    Saves { worker with files := event.files } (worker.step event).1 := by
  unfold step apply
  cases event.command with
  | add path parent => exact saves_add _ event.source path parent
  | remove path => exact saves_remove _ event.source path

theorem Saves.sessionFile {before after : Worker} (h : Saves before after) :
    after.sessionFile = before.sessionFile := by
  cases h with
  | skipped => rfl
  | saved store =>
      unfold saveSession
      split
      · rfl
      · split
        · rfl
        · rfl

/-- If a changed session can be written, the session file is right after a change, and it stays
right. -/
theorem Saves.sessionHolds {before after : Worker} {path : String} (h : Saves before after)
    (hsession : before.sessionFile = some path)
    (hsave : after.store.explicitPaths ≠ before.store.explicitPaths →
      ∃ files, Session.save before.files path after.store.explicitPaths = .ok files)
    (hreason : after.store.explicitPaths ≠ before.store.explicitPaths ∨
      before.SessionHolds path) : after.SessionHolds path := by
  cases h with
  | skipped store hsame =>
      rcases hreason with hchanged | hholds
      · exact absurd hsame hchanged
      · unfold SessionHolds at hholds ⊢
        rw [hsame]
        exact hholds
  | saved store =>
      rw [store_saveSession] at hsave hreason
      dsimp only at hsave hreason
      unfold SessionHolds
      rw [store_saveSession]
      unfold saveSession
      simp only [hsession]
      cases hwrite : Session.save before.files path store.explicitPaths with
      | ok files =>
          unfold Session.save at hwrite
          cases hthrough : before.files.writeThrough path
              (Utf8.encode (Session.text store.explicitPaths)) with
          | error fault =>
              rw [hthrough] at hwrite
              cases hwrite
          | ok written =>
              rw [hthrough] at hwrite
              cases hwrite
              exact FileSystem.read_of_writeThrough hthrough
      | error error =>
          -- A session that cannot be saved is one that did not change.
          have hsame : store.explicitPaths = before.store.explicitPaths := by
            by_contra hchanged
            rcases hsave hchanged with ⟨files, hfiles⟩
            rw [hfiles] at hwrite
            cases hwrite
          rcases hreason with hchanged | hholds
          · exact absurd hsame hchanged
          · unfold SessionHolds at hholds
            rw [hsame]
            exact hholds

/-!
## Runs
-/

/-- Whether nobody but the worker writes to the session file, and the worker can write to it
whenever the archives that stand for their own sake change. -/
def Undisturbed (path : String) : Worker → List WorkerEvent → Prop
  | _, [] => True
  | worker, event :: rest =>
      let after := (worker.step event).1
      event.files.read path = worker.files.read path ∧
        (after.store.explicitPaths ≠ worker.store.explicitPaths →
          ∃ files, Session.save event.files path after.store.explicitPaths = .ok files) ∧
        Undisturbed path after rest

/-- Whether some command changes which archives stand for their own sake. -/
def ChangesSession : Worker → List WorkerEvent → Prop
  | _, [] => False
  | worker, event :: rest =>
      let after := (worker.step event).1
      after.store.explicitPaths ≠ worker.store.explicitPaths ∨ ChangesSession after rest

theorem sessionHolds_run {path : String} {worker : Worker} {events : List WorkerEvent}
    (hsession : worker.sessionFile = some path) (hundisturbed : Undisturbed path worker events)
    (hreason : ChangesSession worker events ∨ worker.SessionHolds path) :
    (worker.run events).SessionHolds path := by
  induction events generalizing worker with
  | nil =>
      rcases hreason with hchanges | hholds
      · cases hchanges
      · exact hholds
  | cons event rest ih =>
      rcases hundisturbed with ⟨hread, hsave, hrest⟩
      have hsaves := saves_step worker event
      apply ih (hsaves.sessionFile.trans hsession) hrest
      -- The file is right from the first change on, wherever in the run that is.
      rcases hreason with (hchanged | hchanges) | hholds
      · exact Or.inr (hsaves.sessionHolds hsession hsave (Or.inl hchanged))
      · exact Or.inl hchanges
      · have hfound : ({ worker with files := event.files } : Worker).SessionHolds path := by
          unfold SessionHolds
          exact hread.trans hholds
        exact Or.inr (hsaves.sessionHolds hsession hsave (Or.inr hfound))

end Worker

/-!
## Restoring
-/

namespace Navigator

/-- Whether each path is canonical and opens when its turn comes, and the session that it then
belongs to can be saved. -/
def StillOpen (sessionFile : String) : Navigator → List String → Prop
  | _, [] => True
  | navigator, path :: rest =>
      navigator.source.normalize path = path ∧
        (∃ contents, navigator.source.load path = .ok contents) ∧
        (∃ files, Session.save navigator.files sessionFile
          (navigator.store.explicitPaths ++ [path]) = .ok files) ∧
        StillOpen sessionFile (navigator.addArchive path).1 rest

/-- What is known of a navigator once it has opened some archives for their own sake. -/
structure Opened (sessionFile : String) (before : Navigator) (added : List String)
    (after : Navigator) : Prop where
  settings : after.settings = before.settings
  paths : after.store.paths = before.store.paths ++ added
  explicitPaths : after.store.explicitPaths = before.store.explicitPaths ++ added
  sessionHolds : added ≠ [] ∨ before.worker.SessionHolds sessionFile →
    after.worker.SessionHolds sessionFile

theorem opened_addArchive {navigator : Navigator} {sessionFile path : String}
    {contents : ArchiveContents} (hsession : navigator.settings.sessionFile = some sessionFile)
    (hpath : navigator.source.normalize path = path) (hnew : path ∉ navigator.store.paths)
    (hload : navigator.source.load path = .ok contents)
    (hsave : ∃ files, Session.save navigator.files sessionFile
      (navigator.store.explicitPaths ++ [path]) = .ok files) :
    Opened sessionFile navigator [path] (navigator.addArchive path).1 ∧
      (navigator.addArchive path).2.added = true := by
  have hnone : navigator.store.archives.findFinIdx? (·.path == path) = none := by
    rw [List.findFinIdx?_eq_none_iff]
    intro archive hmem hsame
    exact hnew (List.mem_map.mpr ⟨archive, hmem, eq_of_beq hsame⟩)
  have hadd : navigator.store.add navigator.source path none =
      ({ archives := navigator.store.archives ++
          [(LoadedArchive.unopened path none).withHandle contents] },
        { added := true
          summary := some ((LoadedArchive.unopened path none).withHandle contents).summary }) := by
    simp only [Store.add, hpath, hnone, hload]
  have hstore : (navigator.worker.add navigator.source path none).1.store =
      { archives := navigator.store.archives ++
          [(LoadedArchive.unopened path none).withHandle contents] } := by
    simp only [Worker.add, worker, hadd, Worker.store_publish]
  have hexplicit : (navigator.worker.add navigator.source path none).1.store.explicitPaths =
      navigator.store.explicitPaths ++ [path] := by
    rw [hstore]
    exact navigator.store.explicitPaths_opened path none contents
  constructor
  · constructor
    · rfl
    · show (navigator.worker.add navigator.source path none).1.store.paths = _
      rw [hstore, Store.paths, List.map_append]
      rfl
    · exact hexplicit
    · intro _
      have hsaves := Worker.saves_add navigator.worker navigator.source path none
      have hholds := hsaves.sessionHolds hsession
        (fun _ => by rw [hexplicit]; exact hsave)
        (Or.inl (by rw [hexplicit]; simp [worker]))
      exact hholds
  · simp only [addArchive, add, Worker.add, worker, hadd]

/-- Opening paths one after another opens them all, in order, and saves them. -/
theorem opened_addAll {navigator : Navigator} {sessionFile : String} {paths : List String}
    (hsession : navigator.settings.sessionFile = some sessionFile)
    (hnodup : (navigator.store.paths ++ paths).Nodup)
    (hopen : StillOpen sessionFile navigator paths) :
    Opened sessionFile navigator paths (navigator.addAll paths).1 ∧
      (navigator.addAll paths).2 = paths.length := by
  induction paths generalizing navigator with
  | nil =>
      constructor
      · exact ⟨rfl, by simp [addAll], by simp [addAll], by simp [addAll]⟩
      · rfl
  | cons path rest ih =>
      rcases hopen with ⟨hpath, ⟨contents, hload⟩, hsave, hrest⟩
      have hnew : path ∉ navigator.store.paths := by
        intro hmem
        exact (List.nodup_append.mp hnodup).2.2 path hmem path List.mem_cons_self rfl
      rcases opened_addArchive hsession hpath hnew hload hsave with ⟨hfirst, hadded⟩
      have hnext : ((navigator.addArchive path).1.store.paths ++ rest).Nodup := by
        rw [hfirst.paths, List.append_assoc]
        exact hnodup
      rcases ih (by rw [hfirst.settings, hsession]) hnext hrest with ⟨hothers, hcount⟩
      constructor
      · show Opened sessionFile navigator (path :: rest)
          ((navigator.addArchive path).1.addAll rest).1
        constructor
        · rw [hothers.settings, hfirst.settings]
        · rw [hothers.paths, hfirst.paths, List.append_assoc]
          rfl
        · rw [hothers.explicitPaths, hfirst.explicitPaths, List.append_assoc]
          rfl
        · intro _
          exact hothers.sessionHolds (Or.inr (hfirst.sessionHolds (Or.inl (by simp))))
      · show (if (navigator.addArchive path).2.added then
          ((navigator.addArchive path).1.addAll rest).2 + 1
          else ((navigator.addArchive path).1.addAll rest).2) = _
        rw [hadded, hcount]
        rfl

end Navigator

/-- Once the archives that stand for their own sake have changed, the session file lists them, in
the order of the store. A navigator that starts from that file opens the same archives again, in
that order and no others, counts them, and leaves the file with the same content. -/
theorem session_file_law {path : String} {files : FileSystem} {events : List WorkerEvent}
    (hundisturbed : Worker.Undisturbed path (Worker.start (some path) files) events)
    (hchanges : Worker.ChangesSession (Worker.start (some path) files) events) :
    let worker := (Worker.start (some path) files).run events
    let explicit := worker.store.explicitPaths
    worker.files.read path = .ok (Utf8.encode (Session.text explicit)) ∧
      Session.load worker.files path = .ok explicit ∧
      ∀ navigator : Navigator, navigator.settings.sessionFile = some path →
        navigator.store = {} → navigator.files.read path = worker.files.read path →
        navigator.StillOpen path explicit →
          navigator.restoreSession.1.store.explicitPaths = explicit ∧
            navigator.restoreSession.1.store.paths = explicit ∧
            navigator.restoreSession.2 = explicit.length ∧
            navigator.restoreSession.1.files.read path = navigator.files.read path := by
  intro worker explicit
  have hholds : worker.files.read path = .ok (Utf8.encode (Session.text explicit)) :=
    Worker.sessionHolds_run rfl hundisturbed (Or.inl hchanges)
  refine ⟨hholds, Session.load_of_read hholds, ?_⟩
  intro navigator hsession hfresh hfile hopen
  have hnodup : explicit.Nodup :=
    worker.store.explicitPaths_sublist.nodup
      (Worker.wellFormed_run events Store.empty_wellFormed).paths_nodup
  have hload : Session.load navigator.files path = .ok explicit :=
    Session.load_of_read (hfile.trans hholds)
  have hrestore : navigator.restoreSession = navigator.addAll explicit := by
    simp only [Navigator.restoreSession, hsession, hload]
  have hempty : navigator.store.paths = [] := by rw [hfresh]; rfl
  rcases Navigator.opened_addAll hsession (by rw [hempty]; exact hnodup) hopen with
    ⟨hopened, hcount⟩
  rw [hrestore]
  have hexplicit : (navigator.addAll explicit).1.store.explicitPaths = explicit := by
    rw [hopened.explicitPaths, hfresh]
    rfl
  refine ⟨hexplicit, ?_, hcount, ?_⟩
  · rw [hopened.paths, hempty]
    rfl
  · have hstart : explicit ≠ [] ∨ navigator.worker.SessionHolds path := by
      by_cases hnone : explicit = []
      · right
        show navigator.files.read path =
          .ok (Utf8.encode (Session.text navigator.store.explicitPaths))
        rw [hfile, hholds, hnone, hfresh]
        rfl
      · exact Or.inl hnone
    have hafter : (navigator.addAll explicit).1.files.read path =
        .ok (Utf8.encode (Session.text (navigator.addAll explicit).1.store.explicitPaths)) :=
      hopened.sessionHolds hstart
    rw [hafter, hexplicit, hfile, hholds]

/-- Commands that are carried out one after another, each among the files as the worker left
them. -/
def Worker.alone : Worker → List StoreCommand → List WorkerEvent
  | _, [] => []
  | worker, command :: rest =>
      let event := { plainly command with files := worker.files }
      event :: (worker.step event).1.alone rest

/-- A worker with a session file and nothing else. -/
def emptySession : Worker := Worker.start (some "/s/session.json") {}

/-- A library is opened for its own sake after it was opened for another archive, and that
archive is closed. -/
def libraryEvents : List WorkerEvent :=
  emptySession.alone
    [.add "/a.dll" none, .add "/b.dll" (some "/a.dll"), .add "/c.dll" none,
      .add "/b.dll" none, .remove "/a.dll"]

/-- A navigator that finds the files of that session. -/
def laterNavigator : Navigator where
  settings := { sessionFile := some "/s/session.json", loader := Worker.emptyModules }
  files := (emptySession.run libraryEvents).files

theorem libraryEvents_undisturbed :
    Worker.Undisturbed "/s/session.json" emptySession libraryEvents := by
  refine ⟨rfl, fun _ => ?_, rfl, fun _ => ?_, rfl, fun _ => ?_, rfl, fun _ => ?_, rfl, fun _ => ?_,
    trivial⟩
  all_goals exact Outcome.exists_eq_ok (by decide +kernel)

theorem laterNavigator_stillOpen :
    laterNavigator.StillOpen "/s/session.json" ["/b.dll", "/c.dll"] := by
  refine ⟨?_, ?_, ?_, ?_, ?_, ?_, trivial⟩
  · decide +kernel
  · exact Outcome.exists_eq_ok (by decide +kernel)
  · exact Outcome.exists_eq_ok (by decide +kernel)
  · decide +kernel
  · exact Outcome.exists_eq_ok (by decide +kernel)
  · exact Outcome.exists_eq_ok (by decide +kernel)

theorem session_file_law_library :
    Session.load (emptySession.run libraryEvents).files "/s/session.json" =
        .ok ["/b.dll", "/c.dll"] ∧
      laterNavigator.restoreSession.1.store.explicitPaths = ["/b.dll", "/c.dll"] ∧
      laterNavigator.restoreSession.2 = 2 ∧
      laterNavigator.restoreSession.1.files.read "/s/session.json" =
        (emptySession.run libraryEvents).files.read "/s/session.json" := by
  have hexplicit : (emptySession.run libraryEvents).store.explicitPaths =
      ["/b.dll", "/c.dll"] := by decide +kernel
  have hchanges : Worker.ChangesSession emptySession libraryEvents := Or.inl (by decide +kernel)
  rcases session_file_law libraryEvents_undisturbed hchanges with ⟨_, hload, hrestore⟩
  have hopen : laterNavigator.StillOpen "/s/session.json"
      (emptySession.run libraryEvents).store.explicitPaths := by
    rw [hexplicit]
    exact laterNavigator_stillOpen
  rcases hrestore laterNavigator rfl rfl rfl hopen with ⟨hrestored, _, hcount, hfile⟩
  exact ⟨hload.trans (congrArg Except.ok hexplicit), hrestored.trans hexplicit,
    hcount.trans (congrArg List.length hexplicit), hfile⟩

end AssemblyBrowser
