import AssemblyBrowser.Export.Basic
import AssemblyBrowser.Proofs.Files.PathTexts
import AssemblyBrowser.Proofs.Files.Writing

/-!
# Plans of an export

Whatever a namespace or a type is called, the directories and the file that its
name becomes are plain names: each is one part of a path, and leads down.

A plan holds one file for each type that has a text, under the path that is left
for it, and the export goes through these files one by one.
-/

namespace AssemblyBrowser.Export

/-!
## Names of exported files
-/

/-- Whether a character is a control character. -/
def IsControl (c : Char) : Prop := c.toNat < 0x20 ∨ (0x7F ≤ c.toNat ∧ c.toNat ≤ 0x9F)

/-- Whether a name is one part of a path on every system, and leads down from the directory it
is in. -/
structure PlainName (name : String) : Prop where
  ne_empty : name ≠ ""
  ne_here : name ≠ "."
  ne_up : name ≠ ".."
  chars : ∀ c ∈ name.toList, c ≠ '/' ∧ c ≠ '\\' ∧ c ≠ ':' ∧ ¬ IsControl c

/-- Whether a path is a directory followed by plain names, of which there is at least one. -/
def Below (directory path : String) : Prop :=
  ∃ names : List String, names ≠ [] ∧ (∀ name ∈ names, PlainName name) ∧
    path = names.foldl Path.join directory

theorem PlainName.isName {name : String} (h : PlainName name) : FileSystem.IsName name where
  downward := by
    refine ⟨?_, h.ne_up⟩
    simp [FileSystem.isHere, h.ne_empty, h.ne_here]
  noSlash := fun hmem => (h.chars '/' hmem).1 rfl

theorem not_reserved {c : Char} (h : isReserved c = false) :
    c ≠ '/' ∧ c ≠ '\\' ∧ c ≠ ':' ∧ ¬ IsControl c := by
  simp only [isReserved, Bool.or_eq_false_iff, decide_eq_false_iff_not, Bool.and_eq_false_iff,
    List.contains_eq_mem, List.mem_cons, not_or] at h
  refine ⟨h.1.1.2.2.2.2.1, h.1.1.2.2.2.2.2.1, h.1.1.2.2.1, ?_⟩
  rintro (hlow | ⟨hfrom, hto⟩)
  · exact h.1.2 hlow
  · rcases h.2 with hnot | hnot
    · exact hnot hfrom
    · exact hnot hto

/-!
## Replacing reserved characters
-/

theorem toList_sanitize (name : String) :
    (sanitize name).toList = name.toList.map fun c => if isReserved c then '_' else c := by
  rw [sanitize, String.toList_ofList]

theorem not_reserved_of_mem_sanitize {name : String} {c : Char} (h : c ∈ (sanitize name).toList) :
    isReserved c = false := by
  rw [toList_sanitize] at h
  rcases List.mem_map.mp h with ⟨d, _, rfl⟩
  split
  case isTrue => decide
  case isFalse hd => simpa using hd

/-- A name without dots stays without dots. -/
theorem dot_not_mem_sanitize {name : String} (h : '.' ∉ name.toList) :
    '.' ∉ (sanitize name).toList := by
  rw [toList_sanitize]
  intro hmem
  rcases List.mem_map.mp hmem with ⟨d, hd, hdot⟩
  split at hdot
  case isTrue => exact absurd hdot (by decide)
  case isFalse =>
    rw [hdot] at hd
    exact h hd

theorem sanitize_ne_empty {name : String} (h : name ≠ "") : sanitize name ≠ "" := by
  intro hempty
  have hnil := toList_sanitize name
  rw [hempty] at hnil
  exact h (String.toList_eq_nil_iff.mp (List.map_eq_nil_iff.mp hnil.symm))

/-- A part of a namespace becomes a plain name. -/
theorem plainName_sanitize {part : String} (hne : part ≠ "") (hdot : '.' ∉ part.toList) :
    PlainName (sanitize part) where
  ne_empty := sanitize_ne_empty hne
  ne_here := by
    intro h
    have hnot := dot_not_mem_sanitize hdot
    rw [h] at hnot
    exact hnot (by decide)
  ne_up := by
    intro h
    have hnot := dot_not_mem_sanitize hdot
    rw [h] at hnot
    exact hnot (by decide)
  chars := fun _ hc => not_reserved (not_reserved_of_mem_sanitize hc)

theorem plainName_of_chars {name : String} (hlength : 2 < name.toList.length)
    (hchars : name.toList.any isReserved = false) : PlainName name where
  ne_empty := by
    rintro rfl
    exact absurd hlength (by decide)
  ne_here := by
    rintro rfl
    exact absurd hlength (by decide)
  ne_up := by
    rintro rfl
    exact absurd hlength (by decide)
  chars := fun c hc => not_reserved (Bool.eq_false_iff.mpr (List.any_eq_false.mp hchars c hc))

/-- With an extension behind it every text becomes a plain name, the empty one too. -/
theorem plainName_file (name : String) {extension : String} (hlength : 2 ≤ extension.toList.length)
    (hchars : extension.toList.any isReserved = false) :
    PlainName (sanitize name ++ "." ++ extension) := by
  apply plainName_of_chars
  · simp only [String.toList_append, List.length_append]
    have hdot : ".".toList.length = 1 := rfl
    omega
  · have hname : (sanitize name).toList.any isReserved = false :=
      List.any_eq_false.mpr fun c hc => Bool.eq_false_iff.mp (not_reserved_of_mem_sanitize hc)
    have hdot : ".".toList.any isReserved = false := rfl
    simp only [String.toList_append, List.any_append, hname, hdot, hchars, Bool.or_false]

theorem plainName_assemblyInfo : PlainName "AssemblyInfo.cs" :=
  plainName_of_chars (by decide) (by decide)

/-!
## Paths
-/

/-- The names of the directories of a namespace. -/
def directoryNames (namespaceName : String) : List String :=
  ((Path.split (· == '.') namespaceName).filter (!·.isEmpty)).map sanitize

theorem directoryOf_eq (output namespaceName : String) :
    directoryOf output namespaceName =
      (directoryNames namespaceName).foldl Path.join output := by
  rw [directoryOf, directoryNames, List.foldl_map]

theorem plainName_of_mem_directoryNames {namespaceName name : String}
    (h : name ∈ directoryNames namespaceName) : PlainName name := by
  rcases List.mem_map.mp h with ⟨part, hpart, rfl⟩
  rcases List.mem_filter.mp hpart with ⟨hmem, hne⟩
  apply plainName_sanitize
  · rintro rfl
    simp at hne
  · intro hdot
    have hfalse := Path.separator_of_mem_split hmem hdot
    simp at hfalse

theorem below_join {directory name : String} (h : PlainName name) :
    Below directory (Path.join directory name) :=
  ⟨[name], by simp, by simpa using h, rfl⟩

theorem below_fileIn (output namespaceName name : String) (dialect : Dialect) :
    Below output (fileIn (directoryOf output namespaceName) name dialect) := by
  have hfile : PlainName (sanitize name ++ "." ++ dialect.fileExtension) := by
    unfold Dialect.fileExtension
    cases dialect.isIl with
    | false => exact plainName_file name (by decide) (by decide)
    | true => exact plainName_file name (by decide) (by decide)
  refine ⟨directoryNames namespaceName ++ [sanitize name ++ "." ++ dialect.fileExtension],
    by simp, ?_, ?_⟩
  · intro other hother
    rcases List.mem_append.mp hother with hdirectory | hname
    · exact plainName_of_mem_directoryNames hdirectory
    · rw [List.mem_singleton.mp hname]
      exact hfile
  · rw [fileIn, directoryOf_eq, List.foldl_append]
    rfl

theorem below_typeFile (output : String) (dialect : Dialect) (taken : List String)
    (type : TypeDefinition) : Below output (typeFile output dialect taken type) := by
  unfold typeFile
  dsimp only
  split
  · exact below_fileIn output _ _ dialect
  · exact below_fileIn output _ _ dialect

/-!
## Files of a plan
-/

/-- The types that have a text, with their texts. -/
def rendered (renderer : Renderer) (dialect : Dialect) (m : CodeModule)
    (types : List TypeDefinition) : List (TypeDefinition × String) :=
  types.filterMap fun type =>
    (renderer.type dialect m type.token).toOption.map fun text => (type, text)

/-- The files that types get one after another, where some are taken already. -/
def typePaths (output : String) (dialect : Dialect) :
    (taken : List String) → List TypeDefinition → List String
  | _, [] => []
  | taken, type :: rest =>
      let path := typeFile output dialect taken type
      path :: typePaths output dialect (path :: taken) rest

theorem length_typePaths (output : String) (dialect : Dialect) (taken : List String)
    (types : List TypeDefinition) :
    (typePaths output dialect taken types).length = types.length := by
  induction types generalizing taken with
  | nil => rfl
  | cons type rest ih => simp [typePaths, ih]

/-- Each path is the one that a type gets after others. -/
theorem exists_of_mem_typePaths {output : String} {dialect : Dialect} {taken : List String}
    {types : List TypeDefinition} {path : String}
    (h : path ∈ typePaths output dialect taken types) :
    ∃ type ∈ types, ∃ others, path = typeFile output dialect others type := by
  induction types generalizing taken with
  | nil => cases h
  | cons type rest ih =>
      rcases List.mem_cons.mp h with rfl | hrest
      · exact ⟨type, List.mem_cons_self, taken, rfl⟩
      · rcases ih hrest with ⟨other, hother, others, hpath⟩
        exact ⟨other, List.mem_cons_of_mem type hother, others, hpath⟩

section Plan

variable (renderer : Renderer) (dialect : Dialect) (m : CodeModule) (output : String)

theorem Plan.files_addTypes (taken : List String) (plan : Plan) (types : List TypeDefinition) :
    (Plan.addTypes renderer dialect m output taken plan types).files =
      plan.files
        ++ (typePaths output dialect taken ((rendered renderer dialect m types).map (·.1))).zip
          ((rendered renderer dialect m types).map (·.2)) := by
  induction types generalizing taken plan with
  | nil => simp [Plan.addTypes, rendered, typePaths]
  | cons type rest ih =>
      rw [Plan.addTypes]
      cases htext : renderer.type dialect m type.token with
      | error error => simp [ih, rendered, htext, Plan.add, Except.toOption]
      | ok text => simp [ih, rendered, htext, Plan.add, typePaths, Except.toOption]

theorem Plan.failures_addTypes (taken : List String) (plan : Plan)
    (types : List TypeDefinition) :
    (Plan.addTypes renderer dialect m output taken plan types).failures
        + (rendered renderer dialect m types).length = plan.failures + types.length := by
  induction types generalizing taken plan with
  | nil => simp [Plan.addTypes, rendered]
  | cons type rest ih =>
      rw [Plan.addTypes]
      cases htext : renderer.type dialect m type.token with
      | error error =>
          have hrest := ih taken (plan.add "" (.error error))
          simp only [rendered, List.filterMap_cons, htext, Except.toOption, Option.map_none,
            Plan.add, List.length_cons] at hrest ⊢
          omega
      | ok text =>
          have hrest := ih (typeFile output dialect taken type :: taken)
            (plan.add (typeFile output dialect taken type) (.ok text))
          simp only [rendered, List.filterMap_cons, htext, Except.toOption, Option.map_some,
            Plan.add, List.length_cons] at hrest ⊢
          omega

end Plan

/-- What each file that is written keeps, writing all of them keeps. -/
theorem writeAll_keeps {P : FileSystem → Prop} {texts : List (String × String)}
    (hstep : ∀ file ∈ texts, ∀ before after,
      before.writeThrough file.1 (Utf8.encode file.2) = .ok after → P before → P after)
    {files : FileSystem} (hstart : P files) : P (writeAll texts files).1 := by
  induction texts generalizing files with
  | nil => exact hstart
  | cons file rest ih =>
      have hrest := fun other hother => hstep other (List.mem_cons_of_mem file hother)
      unfold writeAll
      split
      case h_1 after hwrite =>
        exact ih hrest (hstep file List.mem_cons_self files after hwrite hstart)
      case h_2 => exact ih hrest hstart

/-- A run makes the output directory and writes the plan of the module into it. -/
theorem run_eq_ok {store : Store} {source : ArchiveSource} {renderer : Renderer}
    {files after : FileSystem} {request : ExportRequest} {outcome : ExportOutcome}
    (h : run store source renderer files request = .ok (after, outcome)) :
    ∃ place created,
      store.placeOf source request.address = .ok place ∧
      files.createDirectories request.outputDirectory = .ok created ∧
      let plan := Plan.ofModule renderer request.dialect place request.outputDirectory
        request.includeGenerated
      after = (writeAll plan.files created).1 ∧
      outcome = outcomeOf request.outputDirectory plan (writeAll plan.files created).2 := by
  unfold run at h
  dsimp only at h
  split at h
  case isTrue => cases h
  case isFalse =>
    rcases Outcome.bind_eq_ok.mp h with ⟨place, hplace, h⟩
    rcases Outcome.bind_eq_ok.mp h with ⟨created, hcreated, h⟩
    have hdone := Outcome.pure_eq_ok.mp h
    refine ⟨place, created, hplace, ?_, (congrArg Prod.fst hdone).symm,
      (congrArg Prod.snd hdone).symm⟩
    cases hmade : files.createDirectories request.outputDirectory with
    | error fault =>
        rw [hmade] at hcreated
        cases hcreated
    | ok made =>
        rw [hmade] at hcreated
        cases hcreated
        rfl

end AssemblyBrowser.Export
