import AssemblyBrowser.Proofs.Browsing.Agreement
import AssemblyBrowser.Proofs.Export.Plans

/-!
# The files of an export

Names come from the metadata of a module and may hold anything. The files of an
export are below its output directory all the same, and nothing outside that
directory is touched when they are written.

The file of a type goes by its name without the arity. If that file is taken, the
type gets the one that goes by its whole name, whether or not that is taken too.
So an export keeps all its files exactly if one of the two is free whenever the
turn of a type comes, and no type gets the file of the assembly.
-/

namespace AssemblyBrowser.Export

/-!
## Inside of the directory
-/

theorem below_of_mem_addTypes {renderer : Renderer} {dialect : Dialect} {m : CodeModule}
    {output : String} {taken : List String} {plan : Plan} {types : List TypeDefinition}
    (hplan : ∀ file ∈ plan.files, Below output file.1) :
    ∀ file ∈ (Plan.addTypes renderer dialect m output taken plan types).files,
      Below output file.1 := by
  intro file hfile
  rw [Plan.files_addTypes] at hfile
  rcases List.mem_append.mp hfile with hold | hnew
  · exact hplan file hold
  · rcases exists_of_mem_typePaths (List.of_mem_zip hnew).1 with ⟨type, _, others, hpath⟩
    rw [hpath]
    exact below_typeFile output dialect others type

theorem below_of_mem_csharp {renderer : Renderer} {dialect : Dialect} {place : PlacedModule}
    {output : String} {types : List TypeDefinition} :
    ∀ file ∈ (Plan.csharp renderer dialect place output types).files, Below output file.1 := by
  apply below_of_mem_addTypes
  intro file hfile
  cases hassembly : renderer.assembly dialect place.displayPath place.code with
  | error error =>
      rw [hassembly] at hfile
      cases hfile
  | ok text =>
      rw [hassembly] at hfile
      rw [List.mem_singleton.mp hfile]
      exact below_join plainName_assemblyInfo

theorem below_of_mem_il {renderer : Renderer} {place : PlacedModule} {output : String}
    {types : List TypeDefinition} :
    ∀ file ∈ (Plan.il renderer place output types).files, Below output file.1 := by
  intro file hfile
  unfold Plan.il at hfile
  dsimp only at hfile
  split at hfile
  case isTrue => cases hfile
  case isFalse =>
    rw [List.mem_singleton.mp hfile]
    have hname : PlainName (sanitize place.code.assemblyName ++ "." ++ "il") :=
      plainName_file place.code.assemblyName (by decide) (by decide)
    rw [String.append_assoc] at hname
    exact below_join hname

theorem below_of_mem_ofModule {renderer : Renderer} {dialect : Dialect} {place : PlacedModule}
    {output : String} {includeGenerated : Bool} :
    ∀ file ∈ (Plan.ofModule renderer dialect place output includeGenerated).files,
      Below output file.1 := by
  unfold Plan.ofModule
  dsimp only
  split
  · exact below_of_mem_il
  · exact below_of_mem_csharp

/-!
## Writing below a directory
-/

/-- Whether plain names lead from a place down to another. -/
def LeadsDown (place other : List String) : Prop :=
  ∃ names : List String, names ≠ [] ∧ (∀ name ∈ names, PlainName name) ∧ other = place ++ names

/-- Whether a file system holds what `before` holds and differs from it only below a place. -/
structure DiffersBelow (place : List String) (before after : FileSystem) : Prop where
  growsTo : before.GrowsTo after
  entries : ∀ other, after.entry? other = before.entry? other ∨ LeadsDown place other

/-- Writing to a file below a directory that was made leaves all alone that is not below it. -/
theorem DiffersBelow.writeThrough {files created before after : FileSystem}
    {output path : String} {content : Bytes}
    (hcreated : files.createDirectories output = .ok created) (hpath : Below output path)
    (hwrite : before.writeThrough path content = .ok after)
    (h : DiffersBelow (files.destination output) created before) :
    DiffersBelow (files.destination output) created after where
  growsTo := h.growsTo.trans (FileSystem.growsTo_of_writeThrough hwrite)
  entries := by
    intro other
    rcases hpath with ⟨names, hne, hplain, rfl⟩
    have hcreate := FileSystem.createFrom_of_createDirectories hcreated
    have hgrow := FileSystem.growsTo_of_createFrom hcreate
    -- The directory is still there, so only the way down from it to the file can be new.
    have hthere := FileSystem.createFrom_again hcreate h.growsTo
    have hnames : ∀ name ∈ names, FileSystem.IsName name :=
      fun name hname => (hplain name hname).isName
    rw [← hgrow.start, ← h.growsTo.start] at hthere
    rcases FileSystem.entry?_eq_or_of_writeThrough hthere hnames hne hwrite other with
      hsame | ⟨steps, hsteps, hinitial, hother⟩
    · rw [hsame]
      exact h.entries other
    · rw [h.growsTo.destination, hgrow.destination] at hother
      exact Or.inr
        ⟨steps, hsteps, fun step hstep => hplain step (hinitial.subset hstep), hother⟩

theorem differsBelow_writeAll {files created : FileSystem} {output : String}
    {texts : List (String × String)} (hcreated : files.createDirectories output = .ok created)
    (htexts : ∀ file ∈ texts, Below output file.1) :
    DiffersBelow (files.destination output) created (writeAll texts created).1 := by
  apply writeAll_keeps
  · intro file hfile before after hwrite h
    exact h.writeThrough hcreated (htexts file hfile) hwrite
  · exact { growsTo := FileSystem.GrowsTo.refl created, entries := fun _ => Or.inl rfl }

/-- Whatever the names in a module are, each file of its export is below the output directory,
and a run changes nothing but what is below that directory, which it makes first. -/
theorem export_stays_inside :
    (∀ (renderer : Renderer) (dialect : Dialect) (place : PlacedModule) (output : String)
        (includeGenerated : Bool),
      ∀ file ∈ (Plan.ofModule renderer dialect place output includeGenerated).files,
        Below output file.1) ∧
    ∀ (store : Store) (source : ArchiveSource) (renderer : Renderer) (files after : FileSystem)
        (request : ExportRequest) (outcome : ExportOutcome),
      run store source renderer files request = .ok (after, outcome) →
        ∃ created, files.createDirectories request.outputDirectory = .ok created ∧
          ∀ other, after.entry? other = created.entry? other ∨
            LeadsDown (files.destination request.outputDirectory) other := by
  constructor
  · intro renderer dialect place output includeGenerated
    exact below_of_mem_ofModule
  · intro store source renderer files after request outcome hrun
    rcases run_eq_ok hrun with ⟨place, created, _, hcreated, hafter, _⟩
    refine ⟨created, hcreated, ?_⟩
    rw [hafter]
    exact (differsBelow_writeAll hcreated below_of_mem_ofModule).entries

/-- A module whose names try to lead out of the directory that it is exported to. -/
def hostileModule : CodeModule :=
  (CodeModule.ofSteps "M"
    [.type "..\\..C:.etc" "/../passwd" .classType 0, .type "" ".." .classType 0,
      .type "a/\x00b" "" .classType 0]).1

def requestIntoOut : ExportRequest where
  address := .assembly "M.dll" none
  dialect := .csharpLatest
  outputDirectory := "/out"
  includeGenerated := false

theorem export_stays_inside_hostile :
    ("/out/_/C_/etc/_.._passwd.cs" ∈
        (Plan.ofModule .declarations .csharpLatest (Store.onlyPlace hostileModule) "/out"
          false).files.map (·.1) ∧
      Below "/out" "/out/_/C_/etc/_.._passwd.cs") ∧
    ∃ after outcome created,
      run (Store.holding hostileModule) (.ofFiles .standard {}) .declarations {} requestIntoOut =
        .ok (after, outcome) ∧
      outcome.filesWritten = 4 ∧
      FileSystem.createDirectories {} "/out" = .ok created ∧
      ∀ other, after.entry? other = created.entry? other ∨ LeadsDown ["out"] other := by
  constructor
  · have hpath : "/out/_/C_/etc/_.._passwd.cs" ∈
        (Plan.ofModule .declarations .csharpLatest (Store.onlyPlace hostileModule) "/out"
          false).files.map (·.1) := by decide +kernel
    rcases List.mem_map.mp hpath with ⟨file, hfile, hname⟩
    have hbelow := export_stays_inside.1 _ _ _ _ _ file hfile
    rw [hname] at hbelow
    exact ⟨hpath, hbelow⟩
  · have hwritten : ((run (Store.holding hostileModule) (.ofFiles .standard {}) .declarations {}
        requestIntoOut).toOption.map (·.2.filesWritten)) = some 4 := by decide +kernel
    cases hrun : run (Store.holding hostileModule) (.ofFiles .standard {}) .declarations {}
        requestIntoOut with
    | error error =>
        rw [hrun] at hwritten
        cases hwritten
    | ok result =>
        rw [hrun] at hwritten
        rcases export_stays_inside.2 _ _ _ _ result.1 _ result.2 hrun with
          ⟨created, hcreated, hentries⟩
        have hout : FileSystem.destination {} requestIntoOut.outputDirectory = ["out"] := by
          decide +kernel
        rw [hout] at hentries
        exact ⟨result.1, result.2, created, rfl, Option.some.inj hwritten, hcreated, hentries⟩

/-!
## Files of types
-/

/-- The file of the assembly itself. -/
def assemblyFile (output : String) : String := Path.join output "AssemblyInfo.cs"

/-- The file that goes by the name of a type without its arity. -/
def shortFile (output : String) (dialect : Dialect) (type : TypeDefinition) : String :=
  fileIn (directoryOf output type.namespaceName) (stripArity type.name) dialect

/-- The file that goes by the whole name of a type. -/
def fullFile (output : String) (dialect : Dialect) (type : TypeDefinition) : String :=
  fileIn (directoryOf output type.namespaceName) type.name dialect

/-!
## Free files
-/

section Free

variable {output : String} {dialect : Dialect}

theorem typeFile_not_mem_iff {taken : List String} {type : TypeDefinition} :
    typeFile output dialect taken type ∉ taken ↔
      shortFile output dialect type ∉ taken ∨ fullFile output dialect type ∉ taken := by
  show (if taken.contains (shortFile output dialect type) then fullFile output dialect type
    else shortFile output dialect type) ∉ taken ↔ _
  by_cases htaken : shortFile output dialect type ∈ taken
  · simp [htaken]
  · simp [htaken]

/-- Whether one of the two files of each type is free when its turn comes. -/
def FindFree (output : String) (dialect : Dialect) (taken : List String)
    (types : List TypeDefinition) : Prop :=
  ∀ before type after, types = before ++ type :: after →
    shortFile output dialect type ∉ taken ++ typePaths output dialect taken before ∨
      fullFile output dialect type ∉ taken ++ typePaths output dialect taken before

theorem mem_taken_cons {taken : List String} {type : TypeDefinition}
    {before : List TypeDefinition} {path : String} :
    path ∈ taken ++ typePaths output dialect taken (type :: before) ↔
      path ∈ (typeFile output dialect taken type :: taken)
        ++ typePaths output dialect (typeFile output dialect taken type :: taken) before := by
  simp only [typePaths, List.mem_append, List.mem_cons]
  tauto

theorem findFree_cons {taken : List String} {type : TypeDefinition}
    {rest : List TypeDefinition} :
    FindFree output dialect taken (type :: rest) ↔
      typeFile output dialect taken type ∉ taken ∧
        FindFree output dialect (typeFile output dialect taken type :: taken) rest := by
  rw [typeFile_not_mem_iff]
  constructor
  · intro h
    constructor
    · simpa [typePaths] using h [] type rest rfl
    · intro before other after hrest
      have hother := h (type :: before) other after (by rw [hrest]; rfl)
      rw [mem_taken_cons, mem_taken_cons] at hother
      exact hother
  · rintro ⟨hfirst, hrest⟩ before other after hsplit
    cases before with
    | nil =>
        cases hsplit
        simpa [typePaths] using hfirst
    | cons first before =>
        cases hsplit
        rw [mem_taken_cons, mem_taken_cons]
        exact hrest before other after rfl

/-- The files that types get are new and different from each other exactly if each type finds a
free one. -/
theorem nodup_typePaths_iff {taken : List String} {types : List TypeDefinition} :
    ((typePaths output dialect taken types).Nodup ∧
        ∀ path ∈ typePaths output dialect taken types, path ∉ taken) ↔
      FindFree output dialect taken types := by
  -- What is taken grows by the file of each type, so the induction is for any files taken so far.
  induction types generalizing taken with
  | nil =>
      constructor
      · intro _ before type after h
        cases before with
        | nil => cases h
        | cons first before => cases h
      · intro _
        simp [typePaths]
  | cons type rest ih =>
      rw [findFree_cons, ← ih]
      show (List.Nodup (typeFile output dialect taken type :: _) ∧
        ∀ path ∈ typeFile output dialect taken type :: _, path ∉ taken) ↔ _
      rw [List.nodup_cons, List.forall_mem_cons]
      simp only [List.mem_cons, not_or]
      constructor
      · rintro ⟨⟨hnot, hnodup⟩, hfirst, hrest⟩
        refine ⟨hfirst, hnodup, fun path hpath => ⟨?_, hrest path hpath⟩⟩
        rintro rfl
        exact hnot hpath
      · rintro ⟨hfirst, hnodup, hrest⟩
        refine ⟨⟨fun hmem => (hrest _ hmem).1 rfl, hnodup⟩, hfirst, ?_⟩
        exact fun path hpath => (hrest path hpath).2

/-- Whether no type gets the file of the assembly, and each finds a file that no type before it
has got: the one without its arity, or the one with it. -/
structure KeepApart (output : String) (dialect : Dialect) (types : List TypeDefinition) :
    Prop where
  assembly : assemblyFile output ∉ typePaths output dialect [] types
  types : ∀ before type after, types = before ++ type :: after →
    shortFile output dialect type ∉ typePaths output dialect [] before ∨
      fullFile output dialect type ∉ typePaths output dialect [] before

theorem nodup_paths_iff {types : List TypeDefinition} :
    (assemblyFile output :: typePaths output dialect [] types).Nodup ↔
      KeepApart output dialect types := by
  have hfree : FindFree output dialect [] types ↔
      ∀ before type after, types = before ++ type :: after →
        shortFile output dialect type ∉ typePaths output dialect [] before ∨
          fullFile output dialect type ∉ typePaths output dialect [] before := by
    simp [FindFree]
  rw [List.nodup_cons]
  constructor
  · rintro ⟨hassembly, hnodup⟩
    exact ⟨hassembly, hfree.mp (nodup_typePaths_iff.mp ⟨hnodup, by simp⟩)⟩
  · rintro ⟨hassembly, htypes⟩
    exact ⟨hassembly, (nodup_typePaths_iff.mpr (hfree.mpr htypes)).1⟩

end Free

/-!
## Reading the files back
-/

/-- Different paths below a directory lead to different places. -/
theorem destination_ne {files : FileSystem} {output first second : String}
    (hfirst : Below output first) (hsecond : Below output second) (hne : first ≠ second) :
    files.destination first ≠ files.destination second := by
  rcases hfirst with ⟨names, _, hnames, rfl⟩
  rcases hsecond with ⟨others, _, hothers, rfl⟩
  rw [FileSystem.destination_joins files fun name h => (hnames name h).isName,
    FileSystem.destination_joins files fun name h => (hothers name h).isName]
  intro heq
  rw [List.append_cancel_left heq] at hne
  exact hne rfl

theorem writeAll_cons_eq_zero {file : String × String} {rest : List (String × String)}
    {files : FileSystem} (h : (writeAll (file :: rest) files).2 = 0) :
    ∃ after, files.writeThrough file.1 (Utf8.encode file.2) = .ok after ∧
      writeAll (file :: rest) files = writeAll rest after := by
  rw [writeAll] at h ⊢
  cases hwrite : files.writeThrough file.1 (Utf8.encode file.2) with
  | error fault =>
      rw [hwrite] at h
      cases h
  | ok after => exact ⟨after, rfl, rfl⟩

/-- A file stays as it is while files at other places are written. -/
theorem read_writeAll_of_ne {files : FileSystem} {path : String} {content : Bytes}
    {texts : List (String × String)} (hread : files.read path = .ok content)
    (hother : ∀ file ∈ texts, files.destination path ≠ files.destination file.1) :
    (writeAll texts files).1.read path = .ok content := by
  have hkept : files.GrowsTo (writeAll texts files).1 ∧
      FileSystem.entry? (writeAll texts files).1 (files.destination path) =
        some (.file content) := by
    apply writeAll_keeps (P := fun later => files.GrowsTo later ∧
      later.entry? (files.destination path) = some (.file content))
    · rintro file hfile before after hwrite ⟨hgrow, hentry⟩
      constructor
      · exact hgrow.trans (FileSystem.growsTo_of_writeThrough hwrite)
      · have hne := hother file hfile
        rw [← hgrow.destination file.1] at hne
        exact FileSystem.entry?_of_writeThrough hwrite hne hentry
    · exact ⟨FileSystem.GrowsTo.refl files, (FileSystem.read_eq_ok.mp hread).2⟩
  apply hkept.1.read _ hread
  rw [hkept.2, (FileSystem.read_eq_ok.mp hread).2]

/-- If all files are written, below one directory and under different paths, each is read back. -/
theorem read_writeAll {output : String} {texts : List (String × String)} {files : FileSystem}
    (hall : (writeAll texts files).2 = 0) (hbelow : ∀ file ∈ texts, Below output file.1)
    (hnodup : (texts.map (·.1)).Nodup) :
    ∀ file ∈ texts, (writeAll texts files).1.read file.1 = .ok (Utf8.encode file.2) := by
  induction texts generalizing files with
  | nil => simp
  | cons first rest ih =>
      rcases writeAll_cons_eq_zero hall with ⟨after, hwrite, heq⟩
      rw [heq] at hall ⊢
      rw [List.map_cons, List.nodup_cons] at hnodup
      have hrest := fun file hfile => hbelow file (List.mem_cons_of_mem first hfile)
      rw [List.forall_mem_cons]
      constructor
      · -- The files that come later go to other places.
        apply read_writeAll_of_ne (FileSystem.read_of_writeThrough hwrite)
        intro file hfile
        apply destination_ne (hbelow first List.mem_cons_self) (hrest file hfile)
        intro hsame
        exact hnodup.1 (hsame ▸ List.mem_map_of_mem hfile)
      · exact ih hall hrest hnodup.2

/-!
## Plans without failures
-/

section Complete

variable {renderer : Renderer} {dialect : Dialect}

theorem length_rendered_le (renderer : Renderer) (dialect : Dialect) (m : CodeModule)
    (types : List TypeDefinition) :
    (rendered renderer dialect m types).length ≤ types.length :=
  List.length_filterMap_le _ _

theorem rendered_complete {m : CodeModule} {types : List TypeDefinition}
    (h : (rendered renderer dialect m types).length = types.length) :
    ∃ texts, List.Forall₂ (fun type text => renderer.type dialect m type.token = .ok text)
        types texts ∧
      rendered renderer dialect m types = types.zip texts := by
  induction types with
  | nil => exact ⟨[], .nil, rfl⟩
  | cons type rest ih =>
      have hle := length_rendered_le renderer dialect m rest
      cases htext : renderer.type dialect m type.token with
      | error error =>
          have hsame : rendered renderer dialect m (type :: rest) =
              rendered renderer dialect m rest := by
            simp [rendered, htext, Except.toOption]
          -- One text is missing, and the others cannot make up for it.
          rw [hsame, List.length_cons] at h
          omega
      | ok text =>
          have hcons : rendered renderer dialect m (type :: rest) =
              (type, text) :: rendered renderer dialect m rest := by
            simp [rendered, htext, Except.toOption]
          rw [hcons, List.length_cons, List.length_cons, Nat.add_right_cancel_iff] at h
          rcases ih h with ⟨texts, htexts, hzip⟩
          exact ⟨text :: texts, .cons htext htexts, by rw [hcons, hzip]; rfl⟩

/-- A plan without failures has a file for the assembly and one for each type. -/
theorem csharp_complete {place : PlacedModule} {output : String} {types : List TypeDefinition}
    (h : (Plan.csharp renderer dialect place output types).failures = 0) :
    ∃ assemblyText texts,
      renderer.assembly dialect place.displayPath place.code = .ok assemblyText ∧
      List.Forall₂ (fun type text => renderer.type dialect place.code type.token = .ok text)
        types texts ∧
      (Plan.csharp renderer dialect place output types).files =
        (assemblyFile output :: typePaths output dialect [] types).zip
          (assemblyText :: texts) := by
  have hcount := Plan.failures_addTypes renderer dialect place.code output []
    (({} : Plan).add (assemblyFile output)
      (renderer.assembly dialect place.displayPath place.code)) types
  have hzero : (Plan.addTypes renderer dialect place.code output []
    (({} : Plan).add (assemblyFile output)
      (renderer.assembly dialect place.displayPath place.code)) types).failures = 0 := h
  have hle := length_rendered_le renderer dialect place.code types
  rw [hzero] at hcount
  cases hassembly : renderer.assembly dialect place.displayPath place.code with
  | error error =>
      rw [hassembly] at hcount
      simp only [Plan.add] at hcount
      omega
  | ok assemblyText =>
      rw [hassembly] at hcount
      simp only [Plan.add] at hcount
      have hrendered : (rendered renderer dialect place.code types).length = types.length := by
        omega
      rcases rendered_complete hrendered with ⟨texts, htexts, hzip⟩
      refine ⟨assemblyText, texts, rfl, htexts, ?_⟩
      show (Plan.addTypes renderer dialect place.code output []
        (({} : Plan).add (assemblyFile output)
          (renderer.assembly dialect place.displayPath place.code)) types).files = _
      rw [Plan.files_addTypes, hassembly, hzip, List.map_fst_zip (by rw [htexts.length_eq]),
        List.map_snd_zip (by rw [htexts.length_eq])]
      rfl

end Complete

/-!
## Exports that keep all their files
-/

theorem errorCount_eq_zero {output : String} {plan : Plan} {unwritten : Nat}
    (h : (outcomeOf output plan unwritten).errorCount = 0) :
    plan.failures = 0 ∧ unwritten = 0 ∧
      (outcomeOf output plan unwritten).filesWritten = plan.files.length := by
  have hsum : (outcomeOf output plan unwritten).errorCount = plan.failures + unwritten := by
    unfold outcomeOf
    dsimp only
    split
    · rfl
    · rfl
  have hwritten : (outcomeOf output plan unwritten).filesWritten =
      plan.files.length - unwritten := by
    unfold outcomeOf
    dsimp only
    split
    · rfl
    · rfl
  omega

/-- Where all texts are made and written, the files of an export in C# are different from each
other exactly if its types keep apart, and then each holds the text it was written for. -/
theorem export_keeps_files_iff {store : Store} {source : ArchiveSource} {renderer : Renderer}
    {files after : FileSystem} {request : ExportRequest} {outcome : ExportOutcome}
    {place : PlacedModule}
    (hrun : run store source renderer files request = .ok (after, outcome))
    (hplace : store.placeOf source request.address = .ok place)
    (hdialect : request.dialect.isIl = false) (hall : outcome.errorCount = 0) :
    ∃ assemblyText texts,
      let types := exportedTypes place.code request.includeGenerated
      let paths := assemblyFile request.outputDirectory
        :: typePaths request.outputDirectory request.dialect [] types
      renderer.assembly request.dialect place.displayPath place.code = .ok assemblyText ∧
      List.Forall₂ (fun type text =>
        renderer.type request.dialect place.code type.token = .ok text) types texts ∧
      outcome.filesWritten = paths.length ∧
      (paths.Nodup ↔ KeepApart request.outputDirectory request.dialect types) ∧
      (paths.Nodup → List.Forall₂ (fun path text => after.read path = .ok (Utf8.encode text))
        paths (assemblyText :: texts)) := by
  rcases run_eq_ok hrun with ⟨other, created, hother, _, hafter, houtcome⟩
  rw [hplace] at hother
  cases hother
  have hplan : Plan.ofModule renderer request.dialect place request.outputDirectory
      request.includeGenerated =
        Plan.csharp renderer request.dialect place request.outputDirectory
          (exportedTypes place.code request.includeGenerated) := by
    simp [Plan.ofModule, hdialect]
  rw [houtcome] at hall
  rcases errorCount_eq_zero hall with ⟨hfailures, hunwritten, hwritten⟩
  rw [← houtcome, hplan] at hwritten
  rw [hplan] at hafter hfailures hunwritten
  rcases csharp_complete hfailures with ⟨assemblyText, texts, hassembly, htexts, hfiles⟩
  have hlength : (assemblyFile request.outputDirectory :: typePaths request.outputDirectory
      request.dialect [] (exportedTypes place.code request.includeGenerated)).length =
        (assemblyText :: texts).length := by
    simp [length_typePaths, htexts.length_eq]
  refine ⟨assemblyText, texts, hassembly, htexts, ?_, nodup_paths_iff, ?_⟩
  · rw [hwritten, hfiles, List.length_zip, hlength, Nat.min_self]
  · intro hnodup
    rw [hafter, List.forall₂_iff_zip]
    constructor
    · exact hlength
    · intro path text hmem
      rw [← hfiles] at hmem
      apply read_writeAll hunwritten below_of_mem_csharp _ (path, text) hmem
      rw [hfiles, List.map_fst_zip (by rw [hlength])]
      exact hnodup

/-- A module with a type and a generic type of the same name. -/
def boxModule : CodeModule :=
  (CodeModule.ofSteps "M"
    [.type "Gen" "Box" .classType 1, .type "Gen" "Box`1" .classType 1]).1

theorem export_keeps_files_box :
    ∃ after outcome assemblyText texts,
      run (Store.holding boxModule) (.ofFiles .standard {}) .declarations {} requestIntoOut =
        .ok (after, outcome) ∧
      outcome.errorCount = 0 ∧ outcome.filesWritten = 3 ∧
      KeepApart "/out" .csharpLatest (exportedTypes boxModule false) ∧
      List.Forall₂ (fun path text => after.read path = .ok (Utf8.encode text))
        ["/out/AssemblyInfo.cs", "/out/Gen/Box.cs", "/out/Gen/Box_1.cs"]
        (assemblyText :: texts) := by
  have hcounts : ((run (Store.holding boxModule) (.ofFiles .standard {}) .declarations {}
      requestIntoOut).toOption.map fun result => result.2.errorCount) = some 0 := by
    decide +kernel
  have hpaths : assemblyFile "/out" :: typePaths "/out" .csharpLatest []
      (exportedTypes boxModule false) =
        ["/out/AssemblyInfo.cs", "/out/Gen/Box.cs", "/out/Gen/Box_1.cs"] := by decide +kernel
  cases hrun : run (Store.holding boxModule) (.ofFiles .standard {}) .declarations {}
      requestIntoOut with
  | error error =>
      rw [hrun] at hcounts
      cases hcounts
  | ok result =>
      rcases result with ⟨after, outcome⟩
      rw [hrun] at hcounts
      have hall : outcome.errorCount = 0 := Option.some.inj hcounts
      have hplace : (Store.holding boxModule).placeOf (.ofFiles .standard {})
          requestIntoOut.address = .ok (Store.onlyPlace boxModule) := rfl
      rcases export_keeps_files_iff hrun hplace rfl hall with
        ⟨assemblyText, texts, _, _, hwritten, hiff, hread⟩
      have hnodup : (assemblyFile "/out" :: typePaths "/out" .csharpLatest []
          (exportedTypes boxModule false)).Nodup := by
        rw [hpaths]
        decide
      have hfiles := hread hnodup
      change outcome.filesWritten = (assemblyFile "/out" :: typePaths "/out" .csharpLatest []
        (exportedTypes boxModule false)).length at hwritten
      change List.Forall₂ _ (assemblyFile "/out" :: typePaths "/out" .csharpLatest []
        (exportedTypes boxModule false)) _ at hfiles
      rw [hpaths] at hwritten hfiles
      exact ⟨after, outcome, assemblyText, texts, rfl, hall, hwritten, hiff.mp hnodup, hfiles⟩

/-- The same types the other way around. -/
def clashingModule : CodeModule :=
  (CodeModule.ofSteps "M"
    [.type "Gen" "Box`1" .classType 1, .type "Gen" "Box" .classType 1]).1

/-- The second type finds the file without an arity taken, has no arity to fall back to, and is
written over the first one. -/
theorem export_overwrites_generic_type :
    ((run (Store.holding clashingModule) (.ofFiles .standard {}) .declarations {}
        requestIntoOut).toOption.map fun result =>
          (result.2.errorCount, result.2.filesWritten,
            (result.1.entries.filter fun entry => !entry.2.isDirectory).map (·.1))) =
      some (0, 3, [["out", "AssemblyInfo.cs"], ["out", "Gen", "Box.cs"]]) ∧
    ¬ ((Plan.ofModule .declarations .csharpLatest (Store.onlyPlace clashingModule) "/out"
        false).files.map (·.1)).Nodup := by
  constructor
  · decide +kernel
  · decide +kernel

end AssemblyBrowser.Export
