import Mathlib.Data.List.Nodup
import AssemblyBrowser.Proofs.Outcomes
import AssemblyBrowser.Store.Worker

/-!
# The invariant of the store

Whatever the worker is told to do, and whatever it finds when it does it, the
open archives have different paths, each has its contents, and each knows for
whose sake it was opened. A command that changes nothing says so.
-/

namespace AssemblyBrowser

/-!
## Contents

A container goes by the path that it was opened from.
-/

namespace ArchiveContents

/-- If the contents are a container, it goes by that path. -/
def StandAt (contents : ArchiveContents) (path : String) : Prop :=
  ∀ container, contents = .container container → container.archivePath = path

theorem codeModule_standAt (code : CodeModule) (path : String) :
    (codeModule code).StandAt path := by
  intro container h
  cases h

theorem container_standAt {container : Container} {path : String}
    (h : container.archivePath = path) : (ArchiveContents.container container).StandAt path := by
  intro other hother
  cases hother
  exact h

end ArchiveContents

theorem Container.archivePath_of_ofPackage {loader : ModuleLoader} {path : String} {data : Bytes}
    {container : Container} (h : Container.ofPackage loader path data = .ok container) :
    container.archivePath = path := by
  rcases Outcome.bind_eq_ok.mp h with ⟨entries, _, h⟩
  rcases Outcome.bind_eq_ok.mp h with ⟨metadata, _, h⟩
  rw [← Outcome.pure_eq_ok.mp h]

theorem Container.archivePath_of_ofBundle {loader : ModuleLoader} {path : String} {data : Bytes}
    {offset : Nat} {container : Container}
    (h : Container.ofBundle loader path data offset = .ok container) :
    container.archivePath = path := by
  rcases Outcome.bind_eq_ok.mp h with ⟨manifest, _, h⟩
  rw [← Outcome.pure_eq_ok.mp h]

theorem ArchiveContents.standAt_of_load {loader : ModuleLoader} {files : FileSystem}
    {path : String} {contents : ArchiveContents}
    (h : ArchiveContents.load loader files path = .ok contents) : contents.StandAt path := by
  unfold ArchiveContents.load at h
  split at h
  case isTrue =>
    rcases Outcome.map_eq_ok.mp h with ⟨code, _, hcode⟩
    rw [← hcode]
    exact codeModule_standAt code path
  case isFalse =>
    rcases Outcome.bind_eq_ok.mp h with ⟨data, _, h⟩
    split at h
    case isTrue =>
      rcases Outcome.bind_eq_ok.mp h with ⟨container, hcontainer, h⟩
      rw [← Outcome.pure_eq_ok.mp h]
      exact container_standAt (Container.archivePath_of_ofPackage hcontainer)
    case isFalse =>
      cases hmanifest : BundleManifest.find? data with
      | some manifest =>
          rw [hmanifest] at h
          rcases Outcome.bind_eq_ok.mp h with ⟨container, hcontainer, h⟩
          rw [← Outcome.pure_eq_ok.mp h]
          exact container_standAt (Container.archivePath_of_ofBundle hcontainer)
      | none =>
          rw [hmanifest] at h
          rcases Outcome.bind_eq_ok.mp h with ⟨code, _, h⟩
          rw [← Outcome.pure_eq_ok.mp h]
          exact codeModule_standAt code path

/-- A guard lets values through as they are. -/
theorem ModuleLoader.eq_ok_of_guarded {α : Type} {outcome : Except Error α} {value : α}
    (h : ModuleLoader.guarded outcome = .ok value) : outcome = .ok value := by
  unfold ModuleLoader.guarded at h
  split at h
  · cases h
  · exact h

theorem ArchiveSource.standAt_of_load {source : ArchiveSource} {path : String}
    {contents : ArchiveContents} (h : source.load path = .ok contents) :
    contents.StandAt path :=
  ArchiveContents.standAt_of_load (ModuleLoader.eq_ok_of_guarded h)

/-!
## Archives
-/

namespace LoadedArchive

/-- What holds of every open archive. -/
structure WellFormed (archive : LoadedArchive) : Prop where
  autoLoaded_eq : archive.autoLoaded = archive.parent.isSome
  handle_isSome : archive.handle.isSome = true
  standAt : ∀ contents, archive.handle = some contents → contents.StandAt archive.path

/-- The archive with nothing else changed than that it stands for its own sake. -/
def explicit (archive : LoadedArchive) : LoadedArchive :=
  { archive with parent := none, autoLoaded := false }

theorem promoted_eq {archive : LoadedArchive} (h : archive.handle.isSome = true) :
    archive.promoted archive.path = archive.explicit := by
  rcases Option.isSome_iff_exists.mp h with ⟨contents, hcontents⟩
  simp [promoted, hcontents, withHandle, unopened, explicit]

theorem promoted_wellFormed {archive : LoadedArchive} (h : archive.WellFormed) :
    (archive.promoted archive.path).WellFormed := by
  rw [promoted_eq h.handle_isSome]
  exact ⟨rfl, h.handle_isSome, h.standAt⟩

theorem opened_wellFormed {path : String} (parent : Option String) {contents : ArchiveContents}
    (h : contents.StandAt path) :
    ((unopened path parent).withHandle contents).WellFormed := by
  refine ⟨rfl, rfl, ?_⟩
  intro other hother
  have heq : contents = other := Option.some.inj hother
  rw [← heq]
  exact h

end LoadedArchive

/-!
## What a command does

A command leaves the store as it is, or puts a new archive at its end, or has
one archive stand for its own sake, or takes one archive out.
-/

namespace Store

/-- The paths of the open archives. -/
def paths (store : Store) : List String := store.archives.map LoadedArchive.path

/-- What a command can make of a store, and whether it says that it changed it. -/
inductive Step (source : ArchiveSource) (store : Store) : StoreCommand → Store → Bool → Prop where
  | idle (command : StoreCommand) : Step source store command store false
  | opened (path : String) (parent : Option String) (contents : ArchiveContents)
      (hnew : source.normalize path ∉ store.paths)
      (hload : source.load (source.normalize path) = .ok contents) :
      Step source store (.add path parent)
        { archives := store.archives ++
            [(LoadedArchive.unopened (source.normalize path) parent).withHandle contents] } true
  | promoted (path : String) (position : Fin store.archives.length)
      (hpath : (store.archives.get position).path = source.normalize path)
      (hauto : (store.archives.get position).autoLoaded = true) :
      Step source store (.add path none)
        { archives := store.archives.set position
            ((store.archives.get position).promoted (store.archives.get position).path) } true
  | closed (path : String) (position : Fin store.archives.length)
      (hpath : (store.archives.get position).path = path ∨
        (store.archives.get position).path = source.normalize path) :
      Step source store (.remove path) { archives := store.archives.eraseIdx position } true

theorem add_step {store after : Store} {source : ArchiveSource} {path : String}
    {parent : Option String} {outcome : AddOutcome}
    (h : store.add source path parent = (after, outcome)) :
    Step source store (.add path parent) after outcome.added := by
  simp only [Store.add] at h
  split at h
  case h_1 position hfind =>
    have hpath : (store.archives.get position).path = source.normalize path :=
      eq_of_beq (List.findFinIdx?_eq_some_iff.mp hfind).1
    split at h
    case isTrue hpromote =>
      rw [Bool.and_eq_true, Option.isNone_iff_eq_none] at hpromote
      cases h
      rw [hpromote.2, ← hpath]
      exact Step.promoted path position hpath hpromote.1
    case isFalse =>
      cases h
      exact Step.idle _
  case h_2 hfind =>
    split at h
    case h_1 contents hload =>
      cases h
      refine Step.opened path parent contents ?_ hload
      intro hmem
      rcases List.mem_map.mp hmem with ⟨archive, harchive, hpath⟩
      exact List.findFinIdx?_eq_none_iff.mp hfind archive harchive (beq_iff_eq.mpr hpath)
    case h_2 =>
      cases h
      exact Step.idle _

theorem remove_step {store after : Store} {source : ArchiveSource} {path : String}
    {removed : Option LoadedArchive} (h : store.remove source path = (after, removed)) :
    Step source store (.remove path) after removed.isSome := by
  simp only [Store.remove] at h
  split at h
  case h_1 position hfind =>
    cases h
    refine Step.closed path position ?_
    have hmeant := (List.findFinIdx?_eq_some_iff.mp hfind).1
    rw [Bool.or_eq_true, beq_iff_eq, beq_iff_eq] at hmeant
    exact hmeant
  case h_2 =>
    cases h
    exact Step.idle _

/-!
## The invariant
-/

/-- What holds of the store between commands. -/
structure WellFormed (store : Store) : Prop where
  paths_nodup : store.paths.Nodup
  archive_wellFormed : ∀ archive ∈ store.archives, archive.WellFormed

theorem empty_wellFormed : ({} : Store).WellFormed :=
  ⟨List.nodup_nil, fun _ h => absurd h List.not_mem_nil⟩

/-- An archive stands under its own path. -/
theorem at?_path {store : Store} (hpaths : store.paths.Nodup) {archive : LoadedArchive}
    (hmem : archive ∈ store.archives) : store.at? archive.path = some archive := by
  cases hfound : store.at? archive.path with
  | none => simpa using List.find?_eq_none.mp hfound archive hmem
  | some other =>
      have hsame : other.path = archive.path := by simpa using List.find?_some hfound
      have hother := List.mem_of_find?_eq_some hfound
      rw [List.inj_on_of_nodup_map hpaths hother hmem hsame]

theorem at?_eq_none_iff {store : Store} {path : String} :
    store.at? path = none ↔ path ∉ store.paths := by
  rw [at?, List.find?_eq_none, paths, List.mem_map]
  constructor
  · rintro hnone ⟨archive, hmem, hpath⟩
    exact hnone archive hmem (beq_iff_eq.mpr hpath)
  · exact fun hout archive hmem hpath => hout ⟨archive, hmem, beq_iff_eq.mp hpath⟩

theorem paths_set_explicit (store : Store) (position : Fin store.archives.length) :
    (store.archives.set position (store.archives.get position).explicit).map LoadedArchive.path =
      store.paths := by
  rw [List.map_set]
  apply List.ext_getElem
  · simp [paths]
  · intro index hindex _
    rw [List.getElem_set]
    split
    case isTrue heq => simp [paths, LoadedArchive.explicit, ← heq]
    case isFalse => rfl

theorem paths_set_promoted (store : Store) (position : Fin store.archives.length)
    (h : store.WellFormed) :
    (store.archives.set position
      ((store.archives.get position).promoted (store.archives.get position).path)).map LoadedArchive.path =
      store.paths := by
  have hmem : store.archives.get position ∈ store.archives := List.getElem_mem position.isLt
  rw [LoadedArchive.promoted_eq (h.archive_wellFormed _ hmem).handle_isSome]
  exact paths_set_explicit store position

/-- One command keeps the invariant. -/
theorem wellFormed_of_step {source : ArchiveSource} {store after : Store}
    {command : StoreCommand} {changed : Bool} (hstep : Step source store command after changed)
    (h : store.WellFormed) : after.WellFormed := by
  cases hstep with
  | idle => exact h
  | opened path parent contents hnew hload =>
      constructor
      · rw [paths, List.map_append]
        exact List.Nodup.append h.paths_nodup (List.nodup_singleton _)
          (List.disjoint_singleton.mpr hnew)
      · intro archive hmem
        rcases List.mem_append.mp hmem with hold | hlast
        · exact h.archive_wellFormed archive hold
        · rw [List.mem_singleton.mp hlast]
          exact LoadedArchive.opened_wellFormed parent (ArchiveSource.standAt_of_load hload)
  | promoted path position hpath hauto =>
      constructor
      · rw [paths, paths_set_promoted store position h]
        exact h.paths_nodup
      · intro archive hmem
        rcases List.mem_or_eq_of_mem_set hmem with hold | hpromoted
        · exact h.archive_wellFormed archive hold
        · rw [hpromoted]
          exact LoadedArchive.promoted_wellFormed
            (h.archive_wellFormed _ (List.getElem_mem position.isLt))
  | closed path position hpath =>
      have hsublist : (store.archives.eraseIdx position).Sublist store.archives :=
        List.eraseIdx_sublist _ _
      constructor
      · exact (hsublist.map LoadedArchive.path).nodup h.paths_nodup
      · intro archive hmem
        exact h.archive_wellFormed archive (hsublist.subset hmem)

/-!
## The order of the archives
-/

/-- The archives that are open before and after stand in the same order. -/
def SameOrder (before after : Store) : Prop :=
  before.paths.filter (· ∈ after.paths) = after.paths.filter (· ∈ before.paths)

/-- What is left of a list without repetitions is what the list has in common with it. -/
theorem filter_mem_of_sublist {all kept : List String} (hsublist : kept.Sublist all)
    (hnodup : all.Nodup) : all.filter (· ∈ kept) = kept := by
  induction hsublist with
  | slnil => rfl
  | cons path hrest ih =>
      rw [List.nodup_cons] at hnodup
      have hout : path ∉ _ := fun hmem => hnodup.1 (hrest.subset hmem)
      rw [List.filter_cons_of_neg (by simpa using hout)]
      exact ih hnodup.2
  | cons_cons path hrest ih =>
      rw [List.nodup_cons] at hnodup
      rw [List.filter_cons_of_pos (by simp)]
      congr 1
      refine Eq.trans (List.filter_congr ?_) (ih hnodup.2)
      intro other hother
      have hne : other ≠ path := fun heq => hnodup.1 (heq ▸ hother)
      simp [hne]

theorem sameOrder_of_sublist {before after : Store} (hsublist : after.paths.Sublist before.paths)
    (hnodup : before.paths.Nodup) : SameOrder before after := by
  rw [SameOrder, filter_mem_of_sublist hsublist hnodup, List.filter_eq_self.mpr]
  intro path hpath
  exact decide_eq_true (hsublist.subset hpath)

theorem sameOrder_symm {before after : Store} (h : SameOrder before after) :
    SameOrder after before := Eq.symm h

/-- One command keeps the order. -/
theorem sameOrder_of_step {source : ArchiveSource} {store after : Store}
    {command : StoreCommand} {changed : Bool} (hstep : Step source store command after changed)
    (h : store.WellFormed) : SameOrder store after := by
  have hafter : after.paths.Nodup := (wellFormed_of_step hstep h).paths_nodup
  cases hstep with
  | idle => exact sameOrder_of_sublist (List.Sublist.refl _) h.paths_nodup
  | opened path parent contents hnew hload =>
      refine sameOrder_symm (sameOrder_of_sublist ?_ hafter)
      exact (List.sublist_append_left _ _).map LoadedArchive.path
  | promoted path position hpath hauto =>
      refine sameOrder_of_sublist ?_ h.paths_nodup
      rw [paths, paths_set_promoted store position h]
  | closed path position hpath =>
      refine sameOrder_of_sublist ?_ h.paths_nodup
      exact (List.eraseIdx_sublist _ _).map LoadedArchive.path

/-!
## Promotion
-/

/-- The archive of a path is found where it stands. -/
theorem findFinIdx?_path {store : Store} (h : store.WellFormed)
    (position : Fin store.archives.length) {path : String}
    (hpath : (store.archives.get position).path = path) :
    store.archives.findFinIdx? (·.path == path) = some position := by
  rw [List.findFinIdx?_eq_some_iff]
  constructor
  · exact beq_iff_eq.mpr hpath
  · intro earlier hlt hfound
    have hsame : (store.archives.get earlier).path = (store.archives.get position).path :=
      (eq_of_beq hfound).trans hpath.symm
    have hearlier : earlier.val < store.paths.length := by simp [paths]
    have hposition : position.val < store.paths.length := by simp [paths]
    have hpaths : store.paths[earlier.val] = store.paths[position.val] := by
      simpa [paths] using hsame
    exact Nat.ne_of_lt hlt (h.paths_nodup.getElem_inj_iff.mp hpaths)

/-- Opening an archive for its own sake that was opened for another one changes what is known of
it, and neither its place nor any other archive. -/
theorem add_of_autoLoaded {store : Store} (h : store.WellFormed) (source : ArchiveSource)
    {path : String} (position : Fin store.archives.length)
    (hpath : (store.archives.get position).path = source.normalize path)
    (hauto : (store.archives.get position).autoLoaded = true) :
    (store.add source path none).1.archives =
        store.archives.set position (store.archives.get position).explicit ∧
      (store.add source path none).2.added = true := by
  have hfind := findFinIdx?_path h position hpath
  have hmem : store.archives.get position ∈ store.archives := List.getElem_mem position.isLt
  have hpromoted := LoadedArchive.promoted_eq (h.archive_wellFormed _ hmem).handle_isSome
  rw [hpath] at hpromoted
  simp only [Store.add, hfind, hauto, Option.isNone_none, Bool.and_self, if_true, hpromoted,
    and_self]

end Store

/-!
## Runs of the worker
-/

namespace Worker

theorem store_saveSession (worker : Worker) : worker.saveSession.store = worker.store := by
  unfold saveSession
  split
  · rfl
  · split <;> rfl

theorem store_publish (worker : Worker) (store : Store) (explicitChanged : Bool) :
    (worker.publish store explicitChanged).store = store := by
  unfold publish
  cases explicitChanged with
  | true => exact store_saveSession _
  | false => rfl

/-- The store after a command is one that a step leads to. -/
theorem step_store (worker : Worker) (event : WorkerEvent) :
    Store.Step event.source worker.store event.command (worker.step event).1.store
      (worker.step event).2 := by
  unfold step apply
  cases event.command with
  | add path parent =>
      rcases hadd : worker.store.add event.source path parent with ⟨store, outcome⟩
      simp only [add, hadd, store_publish]
      exact Store.add_step hadd
  | remove path =>
      rcases hremove : worker.store.remove event.source path with ⟨store, removed⟩
      have hstep := Store.remove_step hremove
      cases removed with
      | some archive =>
          simp only [remove, hremove, store_publish]
          exact hstep
      | none =>
          simp only [remove, hremove]
          exact Store.Step.idle _

/-- A command that says that it changed nothing leaves the store and the files alone. -/
theorem step_of_unchanged {worker : Worker} {event : WorkerEvent}
    (h : (worker.step event).2 = false) :
    (worker.step event).1 = { worker with files := event.files } := by
  unfold step apply at h ⊢
  cases hcommand : event.command with
  | add path parent =>
      rw [hcommand] at h
      rcases hadd : worker.store.add event.source path parent with ⟨store, outcome⟩
      have hstep := Store.add_step hadd
      simp only [add, hadd] at h ⊢
      rw [h] at hstep ⊢
      cases hstep
      rfl
  | remove path =>
      rw [hcommand] at h
      rcases hremove : worker.store.remove event.source path with ⟨store, removed⟩
      cases removed with
      | some archive => simp [remove, hremove] at h
      | none => simp [remove, hremove]

theorem wellFormed_run {worker : Worker} (events : List WorkerEvent)
    (h : worker.store.WellFormed) : (worker.run events).store.WellFormed := by
  induction events generalizing worker with
  | nil => exact h
  | cons event rest ih => exact ih (Store.wellFormed_of_step (worker.step_store event) h)

/-- After any commands, in any world that the worker may have found at each of them, the next one
leaves open archives with different paths that are all well-formed, in the order that they had
before; an archive that is promoted keeps its place and its contents; and a command that answers
no changes neither the store nor a file. -/
theorem commands_keep_invariant (sessionFile : Option String) (files : FileSystem)
    (events : List WorkerEvent) (event : WorkerEvent) :
    let before := (start sessionFile files).run events
    let after := (before.step event).1
    let changed := (before.step event).2
    after.store.paths.Nodup ∧
      (∀ archive ∈ after.store.archives,
        (∃ contents, archive.handle = some contents ∧
            ∀ container, contents = .container container →
              container.archivePath = archive.path) ∧
          (archive.autoLoaded = true ↔ archive.parent.isSome = true)) ∧
      Store.SameOrder before.store after.store ∧
      (∀ path, event.command = .add path none →
        ∀ position : Fin before.store.archives.length,
          (before.store.archives.get position).path = event.normalize path →
          (before.store.archives.get position).autoLoaded = true →
            changed = true ∧
              after.store.archives =
                before.store.archives.set position (before.store.archives.get position).explicit) ∧
      (changed = false → after.store = before.store ∧ after.files = event.files) := by
  intro before after changed
  have hbefore : before.store.WellFormed := wellFormed_run events Store.empty_wellFormed
  have hstep : Store.Step event.source before.store event.command after.store changed :=
    before.step_store event
  have hafter : after.store.WellFormed := Store.wellFormed_of_step hstep hbefore
  refine ⟨hafter.paths_nodup, ?_, Store.sameOrder_of_step hstep hbefore, ?_, ?_⟩
  · intro archive hmem
    have harchive := hafter.archive_wellFormed archive hmem
    rcases Option.isSome_iff_exists.mp harchive.handle_isSome with ⟨contents, hcontents⟩
    exact ⟨⟨contents, hcontents, harchive.standAt contents hcontents⟩,
      by rw [harchive.autoLoaded_eq]⟩
  · intro path hcommand position hpath hauto
    have hadd := Store.add_of_autoLoaded hbefore event.source position hpath hauto
    have hstore : (before.step event).1.store = (before.store.add event.source path none).1 := by
      simp only [step, apply, hcommand, add, store_publish]
    have hchanged : (before.step event).2 = (before.store.add event.source path none).2.added := by
      simp only [step, apply, hcommand, add]
    exact ⟨hchanged.trans hadd.2, (congrArg Store.archives hstore).trans hadd.1⟩
  · intro hchanged
    have hsame : (before.step event).1 = { before with files := event.files } :=
      step_of_unchanged hchanged
    constructor
    · change (before.step event).1.store = before.store
      rw [hsame]
    · change (before.step event).1.files = event.files
      rw [hsame]

/-- A loader that finds a module in every file and panics on the content of container entries. -/
def emptyModules : ModuleLoader where
  ofFile _ path := .ok { name := path, runtimeVersion := "" }
  ofBytes _ _ := .error (.panic .zeroDivisor)

/-- A command in a world without files where paths are canonical as they stand. -/
def plainly (command : StoreCommand) : WorkerEvent :=
  { normalize := id, loader := emptyModules, files := {}, command }

/-- The worker after a library was opened because another archive refers to it. -/
def withReference : Worker :=
  (start none {}).run [plainly (.add "/a.dll" (some "/b.dll"))]

/-- The library is opened again, for its own sake. -/
theorem commands_keep_invariant_promotion :
    ∃ position : Fin withReference.store.archives.length,
      (withReference.store.archives.get position).path = "/a.dll" ∧
        (withReference.store.archives.get position).autoLoaded = true ∧
          (withReference.step (plainly (.add "/a.dll" none))).2 = true ∧
            (withReference.step (plainly (.add "/a.dll" none))).1.store.archives =
              withReference.store.archives.set position
                (withReference.store.archives.get position).explicit := by
  have hinvariant := commands_keep_invariant none {}
    [plainly (.add "/a.dll" (some "/b.dll"))] (plainly (.add "/a.dll" none))
  have hpromotion := hinvariant.2.2.2.1 "/a.dll" rfl ⟨0, by decide +kernel⟩
    (by decide +kernel) (by decide +kernel)
  exact ⟨⟨0, by decide +kernel⟩, by decide +kernel, by decide +kernel, hpromotion⟩

end Worker
end AssemblyBrowser
