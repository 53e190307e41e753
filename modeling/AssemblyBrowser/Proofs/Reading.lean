import AssemblyBrowser.Navigator.Basic
import AssemblyBrowser.Proofs.Export.Plans
import AssemblyBrowser.Proofs.Hierarchy.Repetition
import AssemblyBrowser.Proofs.References.OnBehalf

/-!
# Reading

Whoever lists nodes, looks at texts, searches and exports does not change what
was opened. Archives may be added on behalf of others, and the session file stays
as it is unless an export writes to just that file.
-/

namespace AssemblyBrowser

/-!
## Files
-/

namespace FileSystem

variable {files middle after : FileSystem} {place : List String}

/-- The content of the file at a place, if there is one. -/
def contentAt? (files : FileSystem) (place : List String) : Option Bytes :=
  match files.entry? place with
  | some (.file content) => some content
  | _ => none

theorem contentAt?_eq_some {content : Bytes} :
    files.contentAt? place = some content ↔ files.entry? place = some (.file content) := by
  unfold contentAt?
  cases files.entry? place with
  | none => simp
  | some entry => cases entry <;> simp

theorem contentAt?_congr (h : after.entry? place = files.entry? place) :
    after.contentAt? place = files.contentAt? place := by
  unfold contentAt?
  rw [h]

theorem Makes.contentAt?_eq {directory : List String} {segment : String}
    (h : files.Makes directory segment middle) (place : List String) :
    middle.contentAt? place = files.contentAt? place := by
  rcases h.entry?_eq_or place with hsame | ⟨_, _, hmade⟩
  · exact contentAt?_congr hsame
  · cases hentry : files.entry? place with
    | none =>
        unfold contentAt?
        rw [hentry, hmade]
    | some entry => exact contentAt?_congr ((h.keeps hentry).trans hentry.symm)

theorem contentAt?_of_createFrom {directory segments : List String}
    (h : files.createFrom directory segments = .ok after) (place : List String) :
    after.contentAt? place = files.contentAt? place := by
  induction segments generalizing files directory with
  | nil =>
      rw [createFrom_nil] at h
      cases h
      rfl
  | cons segment rest ih =>
      rcases createFrom_cons_eq_ok.mp h with ⟨middle, hmakes, hrest⟩
      rw [ih hrest, hmakes.contentAt?_eq]

theorem contentAt?_of_writeThrough {path : String} {content : Bytes}
    (h : files.writeThrough path content = .ok after) (hplace : place ≠ files.destination path) :
    after.contentAt? place = files.contentAt? place := by
  rcases writeThrough_eq_ok h with ⟨above, name, made, _, hmade, hwrite⟩
  rw [← (growsTo_of_createFrom hmade).destination] at hplace
  rw [contentAt?_congr (entry?_of_write_of_ne hwrite hplace), contentAt?_of_createFrom hmade]

/-- Whether a file system holds what another one held, and a file with the same content or none at
a place. -/
structure Spares (place : List String) (files after : FileSystem) : Prop where
  growsTo : files.GrowsTo after
  contentAt?_eq : after.contentAt? place = files.contentAt? place

theorem Spares.refl (place : List String) (files : FileSystem) : Spares place files files :=
  ⟨GrowsTo.refl files, rfl⟩

theorem Spares.trans (h : Spares place files middle) (hafter : Spares place middle after) :
    Spares place files after :=
  ⟨h.growsTo.trans hafter.growsTo, hafter.contentAt?_eq.trans h.contentAt?_eq⟩

theorem Spares.read {path : String} {content : Bytes}
    (h : Spares (files.destination path) files after) (hread : files.read path = .ok content) :
    after.read path = .ok content := by
  have hentry := (read_eq_ok.mp hread).2
  have hafter := h.contentAt?_eq
  rw [contentAt?_eq_some.mpr hentry] at hafter
  exact h.growsTo.read ((contentAt?_eq_some.mp hafter).trans hentry.symm) hread

end FileSystem

/-- Writing files spares the places to which none of them leads. -/
theorem Export.spares_writeAll {files : FileSystem} {texts : List (String × String)}
    {place : List String} (h : ∀ file ∈ texts, place ≠ files.destination file.1) :
    files.Spares place (writeAll texts files).1 := by
  apply writeAll_keeps
  · intro file hfile before after hwrite hbefore
    refine hbefore.trans ⟨FileSystem.growsTo_of_writeThrough hwrite, ?_⟩
    refine FileSystem.contentAt?_of_writeThrough hwrite ?_
    rw [hbefore.growsTo.destination]
    exact h file hfile
  · exact .refl place files

/-!
## Requests
-/

/-- What can be asked of a navigator without opening or closing an archive. -/
inductive ReadRequest where
  | children (address : Option NodeAddress)
  | text (dialect : Dialect) (address : NodeAddress)
  | search (query : String)
  | exporting (request : ExportRequest)

namespace Navigator

variable {navigator : Navigator}

def afterRequest (navigator : Navigator) : ReadRequest → Navigator
  | .children address => (navigator.children address).1
  | .text _ _ => navigator
  | .search _ => navigator
  | .exporting request => (navigator.exportAssembly request).1

def afterRequests (navigator : Navigator) (requests : List ReadRequest) : Navigator :=
  requests.foldl afterRequest navigator

/-- The places of the files that a request writes, or tries to write. -/
def written (navigator : Navigator) : ReadRequest → List (List String)
  | .children _ => []
  | .text _ _ => []
  | .search _ => []
  | .exporting request =>
      match navigator.store.placeOf navigator.source request.address,
        Export.run navigator.store navigator.source navigator.settings.renderer navigator.files
          request with
      | .ok place, .ok _ =>
          (Export.Plan.ofModule navigator.settings.renderer request.dialect place
            request.outputDirectory request.includeGenerated).files.map
              fun file => navigator.files.destination file.1
      | _, _ => []

/-- Whether no request writes a file to a place when its turn comes. -/
def NeverWrites (place : List String) : Navigator → List ReadRequest → Prop
  | _, [] => True
  | navigator, request :: rest =>
      place ∉ navigator.written request ∧ NeverWrites place (navigator.afterRequest request) rest

theorem settings_exportAssembly (navigator : Navigator) (request : ExportRequest) :
    (navigator.exportAssembly request).1.settings = navigator.settings := by
  unfold exportAssembly
  split <;> rfl

theorem store_exportAssembly (navigator : Navigator) (request : ExportRequest) :
    (navigator.exportAssembly request).1.store = navigator.store := by
  unfold exportAssembly
  split <;> rfl

theorem settings_afterRequest (navigator : Navigator) (request : ReadRequest) :
    (navigator.afterRequest request).settings = navigator.settings := by
  cases request with
  | children address => cases address <;> rfl
  | text => rfl
  | search => rfl
  | exporting request => exact navigator.settings_exportAssembly request

theorem serves_afterRequest (navigator : Navigator) (request : ReadRequest) :
    navigator.store.Serves (navigator.afterRequest request).store := by
  cases request with
  | children address =>
      cases address with
      | none => exact .refl
      | some address => exact navigator.store.children_serves _ _ address
  | text => exact .refl
  | search => exact .refl
  | exporting request =>
      show navigator.store.Serves (navigator.exportAssembly request).1.store
      rw [store_exportAssembly]
      exact .refl

theorem spares_exportAssembly {request : ExportRequest} {place : List String}
    (h : place ∉ navigator.written (.exporting request)) :
    navigator.files.Spares place (navigator.exportAssembly request).1.files := by
  unfold exportAssembly
  split
  case h_1 files outcome hrun =>
    rcases Export.run_eq_ok hrun with ⟨placed, created, hplaced, hcreated, hfiles, _⟩
    have hcreate := FileSystem.createFrom_of_createDirectories hcreated
    have hspared : navigator.files.Spares place created :=
      ⟨FileSystem.growsTo_of_createFrom hcreate, FileSystem.contentAt?_of_createFrom hcreate place⟩
    refine hspared.trans ?_
    show created.Spares place files
    rw [hfiles]
    apply Export.spares_writeAll
    rintro file hfile rfl
    apply h
    simp only [written, hplaced, hrun]
    exact List.mem_map.mpr ⟨file, hfile, (hspared.growsTo.destination file.1).symm⟩
  case h_2 => exact .refl place navigator.files

theorem spares_afterRequest {request : ReadRequest} {place : List String}
    (h : place ∉ navigator.written request) :
    navigator.files.Spares place (navigator.afterRequest request).files := by
  cases request with
  | children address =>
      cases address with
      | none => exact .refl _ _
      | some address => exact .refl _ _
  | text => exact .refl _ _
  | search => exact .refl _ _
  | exporting request => exact spares_exportAssembly h

/-!
## Sequences of requests
-/

theorem settings_afterRequests (navigator : Navigator) (requests : List ReadRequest) :
    (navigator.afterRequests requests).settings = navigator.settings := by
  induction requests generalizing navigator with
  | nil => rfl
  | cons request rest ih => exact (ih _).trans (navigator.settings_afterRequest request)

theorem serves_afterRequests (navigator : Navigator) (requests : List ReadRequest) :
    navigator.store.Serves (navigator.afterRequests requests).store := by
  induction requests generalizing navigator with
  | nil => exact .refl
  | cons request rest ih => exact (navigator.serves_afterRequest request).trans (ih _)

theorem spares_afterRequests {requests : List ReadRequest} {place : List String}
    (h : NeverWrites place navigator requests) :
    navigator.files.Spares place (navigator.afterRequests requests).files := by
  induction requests generalizing navigator with
  | nil => exact .refl place navigator.files
  | cons request rest ih => exact (spares_afterRequest h.1).trans (ih h.2)

/-- Whatever is open and whatever is asked for, the archives that were open stay as they are and in
their order, and the same ones stand for their own sake. Others are put behind them, each opened
on behalf of one that is open by then. No file changes its content, the session file among them,
unless an export of the sequence writes to its place. -/
theorem reading_keeps_opened (navigator : Navigator) (requests : List ReadRequest) :
    let after := navigator.afterRequests requests
    after.settings = navigator.settings ∧
      after.store.explicitPaths = navigator.store.explicitPaths ∧
      (∃ opened, after.store.archives = navigator.store.archives ++ opened ∧
        ∀ (index : Nat) (hindex : index < opened.length), opened[index].autoLoaded = true ∧
          ∃ parent, opened[index].parent = some parent ∧
            parent ∈ (navigator.store.archives ++ opened.take index).map LoadedArchive.path) ∧
      ∀ path, NeverWrites (navigator.files.destination path) navigator requests →
        after.files.contentAt? (navigator.files.destination path) =
            navigator.files.contentAt? (navigator.files.destination path) ∧
          ∀ content, navigator.files.read path = .ok content →
            after.files.read path = .ok content := by
  intro after
  have hopened := (navigator.serves_afterRequests requests).exists_opened
  refine ⟨navigator.settings_afterRequests requests, ?_, hopened, ?_⟩
  · rcases hopened with ⟨opened, harchives, heach⟩
    have hnone : opened.filter (fun archive => !archive.autoLoaded) = [] := by
      refine List.filter_eq_nil_iff.mpr fun archive hmem => ?_
      rcases List.mem_iff_getElem.mp hmem with ⟨index, hindex, rfl⟩
      simp [(heach index hindex).1]
    unfold Store.explicitPaths
    rw [show after.store.archives = _ from harchives, List.filter_append, hnone, List.append_nil]
  · intro path hnever
    have hspares := spares_afterRequests hnever
    exact ⟨hspares.contentAt?_eq, fun content hread => hspares.read hread⟩

/-- A navigator with a library beside what is open, and with a session file. -/
def recorded (sessionFile : String) : Navigator :=
  { besideLibrary "Lib" with
    settings := { loader := libraryLoader "Lib", sessionFile := some sessionFile }
    files := (libraryFiles.writeThrough sessionFile
      (Utf8.encode (Session.text ["/App.dll"]))).toOption.getD libraryFiles }

def exportApp : ExportRequest where
  address := .assembly "/App.dll" none
  dialect := .csharpLatest
  outputDirectory := "/out"
  includeGenerated := false

/-- The paths that are open once base types were listed, if so many steps tell. -/
def pathsWithin (fuel : Nat) (navigator : Navigator) (address : NodeAddress) :
    Option (List String) := do
  let subject ← (navigator.store.subjectOf navigator.source address).toOption
  let (final, _) ← navigator.settings.resolver.walkWithin navigator.source subject.isInterface fuel
    navigator.store [subject.fullName] subject.supertypes
  return final.paths

theorem paths_children_of_within (fuel : Nat) {address : NodeAddress} {paths : List String}
    (hstore : navigator.store.WellFormed) (hkind : address.kind = .baseTypesGroup)
    (h : pathsWithin fuel navigator address = some paths) :
    (navigator.children (some address)).1.store.paths = paths := by
  rcases Option.bind_eq_some_iff.mp h with ⟨subject, hsubject, h⟩
  rcases Option.bind_eq_some_iff.mp h with ⟨⟨final, meetings⟩, hwithin, hpaths⟩
  have hok := Outcome.eq_ok_of_toOption hsubject
  rcases Resolver.baseTypes_walks navigator.settings.resolver navigator.source (fun _ => rfl)
    hstore (Store.defines_of_subjectOf hok).1 with ⟨others, hwalks, _⟩
  have hfinal := ((Resolver.walks_of_walkWithin hwithin).functional hwalks).1
  rw [children_baseTypes hkind hok, hfinal]
  exact Option.some.inj hpaths

/-- The module is exported, and its base types are listed, which opens the library. The session is
as it was. -/
theorem reading_keeps_opened_library :
    let after := (recorded "/s.json").afterRequests
      [.exporting exportApp, .children (some derivedGroup)]
    after.store.paths = ["/App.dll", "/Lib.dll"] ∧
      after.store.explicitPaths = ["/App.dll"] ∧
      after.files.read "/s.json" = .ok (Utf8.encode (Session.text ["/App.dll"])) := by
  have hplace : (recorded "/s.json").files.destination "/s.json" = ["s.json"] := by decide +kernel
  have hnever : NeverWrites ["s.json"] (recorded "/s.json")
      [.exporting exportApp, .children (some derivedGroup)] := by
    refine ⟨?_, List.not_mem_nil, trivial⟩
    decide +kernel
  have hread : (recorded "/s.json").files.read "/s.json" =
      .ok (Utf8.encode (Session.text ["/App.dll"])) :=
    Outcome.eq_ok_of_toOption (by decide +kernel)
  rcases reading_keeps_opened (recorded "/s.json")
    [.exporting exportApp, .children (some derivedGroup)] with ⟨_, hexplicit, _, hfiles⟩
  refine ⟨?_, hexplicit.trans (by decide +kernel), ?_⟩
  · refine paths_children_of_within 4 ?_ rfl (by decide +kernel)
    show ((recorded "/s.json").exportAssembly exportApp).1.store.WellFormed
    rw [store_exportAssembly]
    exact Worker.wellFormed_run [openDerived "Lib"] Store.empty_wellFormed
  · exact (hfiles "/s.json" (by rw [hplace]; exact hnever)).2 _ hread

/-- An export to the directory of the session file may write over it. -/
theorem export_overwrites_session :
    (recorded "/out/AssemblyInfo.cs").settings.sessionFile = some "/out/AssemblyInfo.cs" ∧
      (recorded "/out/AssemblyInfo.cs").files.contentAt? ["out", "AssemblyInfo.cs"] =
        some (Utf8.encode (Session.text ["/App.dll"])) ∧
      ((recorded "/out/AssemblyInfo.cs").afterRequest (.exporting exportApp)).files.contentAt?
          ["out", "AssemblyInfo.cs"] ≠ some (Utf8.encode (Session.text ["/App.dll"])) := by
  refine ⟨rfl, ?_, ?_⟩
  · decide +kernel
  · decide +kernel

end Navigator
end AssemblyBrowser
