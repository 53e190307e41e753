import AssemblyBrowser.Module.Builder
import AssemblyBrowser.Proofs.Files.Writing
import AssemblyBrowser.Proofs.StoreInvariant
import AssemblyBrowser.Store.Resolver

/-!
# Where references are looked for

The paths at which an assembly is looked for are made of directories and of the
name that a module has for it. A name without slashes stays in these directories.
One with slashes leads to wherever its own directory part leads.
-/

namespace AssemblyBrowser

/-!
## Paths that end in an extended name
-/

namespace Path

theorem splitChars_append_of_forall {separator : Char → Bool} {chars suffix last : List Char}
    {above : List (List Char)} (hsuffix : ∀ c ∈ suffix, separator c = false)
    (h : splitChars separator chars = above ++ [last]) :
    splitChars separator (chars ++ suffix) = above ++ [last ++ suffix] := by
  induction chars generalizing above last with
  | nil =>
      have hnil : [[]] = above ++ [last] := h
      rcases List.append_eq_singleton_iff.mp hnil.symm with ⟨rfl, hlast⟩ | ⟨_, hlast⟩
      · cases hlast
        exact splitChars_of_forall hsuffix
      · cases hlast
  | cons c rest ih =>
      rcases List.eq_nil_or_concat' (splitChars separator rest) with hnil | ⟨before, final, hrest⟩
      · exact absurd hnil (splitChars_ne_nil separator rest)
      · have hagain := ih hrest
        rw [splitChars] at h
        rw [List.cons_append, splitChars, hagain]
        cases hc : separator c with
        | true =>
            rw [hc, if_pos rfl, hrest, ← List.cons_append] at h
            rcases List.append_inj' h rfl with ⟨rfl, hlast⟩
            cases hlast
            rfl
        | false =>
            rw [hc, if_neg Bool.false_ne_true, hrest] at h
            rw [if_neg Bool.false_ne_true]
            cases before with
            | nil =>
                have hone : [c :: final] = above ++ [last] := h
                rcases List.append_inj' (show [] ++ [c :: final] = above ++ [last] from hone) rfl
                  with ⟨rfl, hlast⟩
                cases hlast
                rfl
            | cons first others =>
                have hmore : ((c :: first) :: others) ++ [final] = above ++ [last] := h
                rcases List.append_inj' hmore rfl with ⟨rfl, hlast⟩
                cases hlast
                rfl

end Path

namespace FileSystem

theorem segments_append {name suffix last : String} {above : List String}
    (hsuffix : '/' ∉ suffix.toList) (h : segments name = above ++ [last]) :
    segments (name ++ suffix) = above ++ [last ++ suffix] := by
  rcases List.map_eq_append_iff.mp h with ⟨before, final, hsplit, rfl, hfinal⟩
  rcases List.map_eq_singleton_iff.mp hfinal with ⟨chars, rfl, rfl⟩
  have hnone : ∀ c ∈ suffix.toList, (c == '/') = false := by
    intro c hc
    rw [beq_eq_false_iff_ne]
    rintro rfl
    exact hsuffix hc
  unfold segments Path.split
  rw [String.toList_append, Path.splitChars_append_of_forall hnone hsplit, List.map_append,
    List.map_singleton, String.ofList_append, String.ofList_toList]

theorem downward_of_length {name : String} (h : 2 < name.length) : Downward name := by
  constructor
  · rw [isHere, Bool.or_eq_false_iff, String.isEmpty_eq_false_iff, beq_eq_false_iff_ne]
    constructor
    · rintro rfl
      exact absurd h (by decide)
    · rintro rfl
      exact absurd h (by decide)
  · rintro rfl
    exact absurd h (by decide)

theorem target_segments_slash (place : List String) (start : String) :
    target place (segments (start ++ "/")) = target place (segments start) := by
  have hsegments : segments (start ++ "/") = segments start ++ [""] := by
    simpa using segments_append_slash start ""
  rw [hsegments, target_append]
  exact onward_of_isHere _ isHere_empty

theorem destination_join (files : FileSystem) (directory path : String) :
    files.destination (Path.join directory path) =
      target (if path.startsWith "/" then [] else files.destination directory)
        (segments path) := by
  unfold Path.join
  by_cases hslash : path.startsWith "/" = true
  · rw [hslash, Bool.true_or, if_pos rfl, if_pos rfl]
    unfold destination start
    rw [if_pos hslash]
  · rw [Bool.eq_false_iff.mpr hslash, Bool.false_or, if_neg Bool.false_ne_true]
    split
    case isTrue hempty =>
      have hworking : files.start path = files.destination "" := by
        unfold start
        rw [if_neg hslash]
        rfl
      rw [String.isEmpty_iff.mp hempty, ← hworking]
      rfl
    case isFalse hne =>
      have hdirectory : directory ≠ "" := fun h => hne (String.isEmpty_iff.mpr h)
      have hstart (rest : String) : files.start (directory ++ rest) = files.start directory := by
        unfold start
        rw [Path.startsWith_slash_append hdirectory]
      split
      case isTrue hends =>
        rcases Path.exists_eq_append_of_endsWith_slash hends with ⟨above, rfl⟩
        unfold destination
        rw [hstart, target_segments_slash, segments_append_slash, target_append]
      case isFalse =>
        unfold destination
        rw [segments_append_slash, String.append_assoc, hstart, target_append]

/-!
## Landings
-/

/-- The place of the directory in which a name is looked for that starts out from a directory: that
of the directory itself, unless the name has slashes. -/
def landing (files : FileSystem) (directory name : String) : List String :=
  target (if name.startsWith "/" then [] else files.destination directory)
    (segments name).dropLast

theorem landing_of_not_mem (files : FileSystem) (directory : String) {name : String}
    (h : '/' ∉ name.toList) : files.landing directory name = files.destination directory := by
  unfold landing
  rw [Path.startsWith_slash_of_not_mem h, segments_of_not_mem h]
  rfl

theorem destination_candidate (files : FileSystem) (directory name : String) {extension : String}
    (h : extension ∈ Resolver.extensions) :
    ∃ file, files.destination (Path.join directory (name ++ "." ++ extension)) =
      files.landing directory name ++ [file] := by
  have hextension : '/' ∉ ("." ++ extension).toList ∧ 2 < ("." ++ extension).length := by
    simp only [Resolver.extensions, List.mem_cons, List.not_mem_nil, or_false] at h
    rcases h with rfl | rfl <;> decide
  rcases List.eq_nil_or_concat' (segments name) with hnil | ⟨above, last, hsegments⟩
  · rcases exists_segments_eq_cons name with ⟨first, rest, hcons⟩
    rw [hnil] at hcons
    cases hcons
  · have hlong : Downward (last ++ ("." ++ extension)) := by
      apply downward_of_length
      rw [String.length_append]
      exact Nat.lt_add_left _ hextension.2
    have hslash : (name ++ ("." ++ extension)).startsWith "/" = name.startsWith "/" := by
      by_cases hname : name = ""
      · subst hname
        rw [String.empty_append, Path.startsWith_slash_of_not_mem hextension.1,
          Path.startsWith_slash_of_not_mem (by simp)]
      · exact Path.startsWith_slash_append hname _
    refine ⟨last ++ ("." ++ extension), ?_⟩
    rw [String.append_assoc, destination_join, hslash, segments_append hextension.1 hsegments,
      target_append, target_cons, onward_of_downward _ hlong]
    unfold landing
    rw [hsegments, List.dropLast_concat]
    rfl

/-- Whether a path leads to a file that is directly in a directory. -/
structure IsFileIn (files : FileSystem) (directory path : String) : Prop where
  isFile : files.isFile path = true
  inside : ∃ file, files.destination path = files.destination directory ++ [file]

end FileSystem

/-!
## Probing
-/

namespace Resolver

variable {source : ArchiveSource} {requesting : LoadedArchive}

/-- The candidates that probing opens, or tries to open. -/
def probed (source : ArchiveSource) (requesting : LoadedArchive) :
    (candidates : List String) → Store → List String
  | [], _ => []
  | candidate :: rest, store =>
      if source.isFile candidate then
        let (after, outcome) := store.add source candidate (some requesting.path)
        candidate :: if outcome.summary.isSome then [] else probed source requesting rest after
      else probed source requesting rest store

def openAll (source : ArchiveSource) (requesting : LoadedArchive) (store : Store)
    (paths : List String) : Store :=
  paths.foldl (fun store path => (store.add source path (some requesting.path)).1) store

theorem probe_store (candidates : List String) (store : Store) :
    (probe source requesting candidates store).1 =
      openAll source requesting store (probed source requesting candidates store) := by
  induction candidates generalizing store with
  | nil => rfl
  | cons candidate rest ih =>
      rw [probe, probed]
      split
      case isTrue =>
        rcases hadd : store.add source candidate (some requesting.path) with ⟨after, outcome⟩
        have hopen (paths : List String) :
            openAll source requesting store (candidate :: paths) =
              openAll source requesting after paths := by
          unfold openAll
          rw [List.foldl_cons, hadd]
        simp only [hopen]
        split
        · rfl
        · exact ih after
      case isFalse => exact ih store

theorem mem_of_mem_probed {candidates : List String} {store : Store} {path : String}
    (h : path ∈ probed source requesting candidates store) :
    path ∈ candidates ∧ source.isFile path = true := by
  induction candidates generalizing store with
  | nil => cases h
  | cons candidate rest ih =>
      have hlater {store : Store} (h : path ∈ probed source requesting rest store) :
          path ∈ candidate :: rest ∧ source.isFile path = true :=
        ⟨List.mem_cons_of_mem _ (ih h).1, (ih h).2⟩
      rw [probed] at h
      generalize store.add source candidate (some requesting.path) = added at h
      split at h
      case isTrue hfile =>
        rcases List.mem_cons.mp h with rfl | hrest
        · exact ⟨List.mem_cons_self, hfile⟩
        · split at hrest
          · cases hrest
          · exact hlater hrest
      case isFalse => exact hlater h

/-- The paths that resolving a name opens, or tries to open. -/
def asked (resolver : Resolver) (source : ArchiveSource) (store : Store)
    (requesting : LoadedArchive) (name : String) : List String :=
  match (loaded? store name) <|> (beside? requesting name) with
  | some _ => []
  | none =>
      if resolver.autoLoad then
        probed source requesting (resolver.candidates requesting name) store
      else []

theorem resolve_store (resolver : Resolver) (store : Store) (name : String) :
    (resolver.resolve source store requesting name).1 =
      openAll source requesting store (resolver.asked source store requesting name) := by
  unfold resolve asked
  cases loaded? store name <|> beside? requesting name with
  | some found => rfl
  | none =>
      cases resolver.autoLoad with
      | true => exact probe_store _ store
      | false => rfl

theorem mem_of_mem_asked {resolver : Resolver} {store : Store} {name path : String}
    (h : path ∈ resolver.asked source store requesting name) :
    source.isFile path = true ∧ ∃ directory ∈ resolver.directories requesting,
      ∃ extension ∈ extensions, path = Path.join directory (name ++ "." ++ extension) := by
  unfold asked at h
  split at h
  case h_1 => cases h
  case h_2 =>
    split at h
    case isTrue =>
      rcases mem_of_mem_probed h with ⟨hcandidate, hfile⟩
      rcases List.mem_flatMap.mp hcandidate with ⟨directory, hdirectory, hpath⟩
      rcases List.mem_map.mp hpath with ⟨extension, hextension, rfl⟩
      exact ⟨hfile, directory, hdirectory, extension, hextension, rfl⟩
    case isFalse => cases h

/-- A path that a name leads to is in a directory exactly if the name lands there. -/
theorem isFileIn_iff {files : FileSystem} {directory other name extension : String}
    (hextension : extension ∈ extensions)
    (hfile : files.isFile (Path.join directory (name ++ "." ++ extension)) = true) :
    files.IsFileIn other (Path.join directory (name ++ "." ++ extension)) ↔
      files.landing directory name = files.destination other := by
  rcases files.destination_candidate directory name hextension with ⟨file, hdestination⟩
  constructor
  · rintro ⟨_, inner, hinside⟩
    rw [hdestination] at hinside
    exact (List.append_inj' hinside rfl).1
  · intro hlanding
    exact ⟨hfile, file, by rw [hdestination, hlanding]⟩

/-- The paths that are opened for a name are in the directories that are searched exactly if the
name lands in one of them wherever a file was found for it. A name without slashes always does. -/
theorem asked_inside_iff (resolver : Resolver) (source : ArchiveSource) (store : Store)
    (requesting : LoadedArchive) (name : String) :
    let asked := resolver.asked source store requesting name
    let directories := resolver.directories requesting
    (resolver.resolve source store requesting name).1 =
        openAll source requesting store asked ∧
      ((∀ path ∈ asked, ∃ directory ∈ directories, source.files.IsFileIn directory path) ↔
        ∀ directory ∈ directories, ∀ extension ∈ extensions,
          Path.join directory (name ++ "." ++ extension) ∈ asked →
            ∃ other ∈ directories,
              source.files.landing directory name = source.files.destination other) ∧
      ('/' ∉ name.toList →
        ∀ path ∈ asked, ∃ directory ∈ directories, source.files.IsFileIn directory path) := by
  intro asked directories
  have hiff : (∀ path ∈ asked, ∃ directory ∈ directories, source.files.IsFileIn directory path) ↔
      ∀ directory ∈ directories, ∀ extension ∈ extensions,
        Path.join directory (name ++ "." ++ extension) ∈ asked →
          ∃ other ∈ directories,
            source.files.landing directory name = source.files.destination other := by
    constructor
    · intro hinside directory _ extension hextension hasked
      rcases hinside _ hasked with ⟨other, hother, hfile⟩
      exact ⟨other, hother, (isFileIn_iff hextension hfile.isFile).mp hfile⟩
    · intro hlands path hasked
      rcases mem_of_mem_asked hasked with ⟨hfile, directory, hdirectory, extension, hextension, rfl⟩
      rcases hlands directory hdirectory extension hextension hasked with ⟨other, hother, hlanding⟩
      exact ⟨other, hother, (isFileIn_iff hextension hfile).mpr hlanding⟩
  refine ⟨resolve_store resolver store name, hiff, ?_⟩
  intro hslash
  refine hiff.mpr fun directory hdirectory _ _ _ => ⟨directory, hdirectory, ?_⟩
  exact source.files.landing_of_not_mem directory hslash

/-- A module that refers to an assembly by a name with slashes. -/
def strayingModule : CodeModule :=
  (CodeModule.ofSteps "App.dll" [.reference { name := "../other/Lib", version := ⟨1, 0, 0, 0⟩ }]).1

def appArchive : LoadedArchive :=
  (LoadedArchive.unopened "/w/app/App.dll" none).withHandle (.codeModule strayingModule)

/-- Libraries of one name in that directory and in the one beside it. -/
def libraryFiles : FileSystem where
  entries :=
    [(["w"], .directory), (["w", "app"], .directory), (["w", "app", "App.dll"], .file #[]),
      (["w", "app", "Lib.dll"], .file #[]), (["w", "other"], .directory),
      (["w", "other", "Lib.dll"], .file #[])]

def libraries : ArchiveSource := .ofFiles Worker.emptyModules libraryFiles

theorem asked_inside_iff_library :
    asked {} libraries { archives := [appArchive] } appArchive "Lib" = ["/w/app/Lib.dll"] ∧
      ∃ directory ∈ directories {} appArchive,
        libraryFiles.IsFileIn directory "/w/app/Lib.dll" := by
  have hasked :
      asked {} libraries { archives := [appArchive] } appArchive "Lib" = ["/w/app/Lib.dll"] := by
    decide +kernel
  refine ⟨hasked, ?_⟩
  apply (asked_inside_iff {} libraries { archives := [appArchive] } appArchive "Lib").2.2
  · decide
  · rw [hasked]
    exact List.mem_singleton_self _

/-- For the name with slashes a file outside all directories that are searched is opened. -/
theorem reference_leaves_directories :
    (∃ reference ∈ strayingModule.references.toList, reference.identity.name = "../other/Lib") ∧
      asked {} libraries { archives := [appArchive] } appArchive "../other/Lib" =
        ["/w/app/../other/Lib.dll"] ∧
      (resolve {} libraries { archives := [appArchive] } appArchive "../other/Lib").1.paths =
        ["/w/app/App.dll", "/w/other/Lib.dll"] ∧
      ¬ ∃ directory ∈ directories {} appArchive,
        libraryFiles.IsFileIn directory "/w/app/../other/Lib.dll" := by
  refine ⟨by decide +kernel, by decide +kernel, by decide +kernel, ?_⟩
  have hdirectories : directories {} appArchive = ["/w/app"] := by decide +kernel
  have hplace : libraryFiles.destination "/w/app/../other/Lib.dll" ≠
      libraryFiles.destination "/w/app" ++ ["Lib.dll"] := by decide +kernel
  rw [hdirectories]
  rintro ⟨directory, hdirectory, _, file, hinside⟩
  rw [List.mem_singleton.mp hdirectory] at hinside
  have hfile : file = "Lib.dll" := by
    have hlast := congrArg List.getLast? hinside
    rw [List.getLast?_concat] at hlast
    have hname : (libraryFiles.destination "/w/app/../other/Lib.dll").getLast? = some "Lib.dll" := by
      decide +kernel
    exact Option.some.inj (hlast.symm.trans hname)
  exact hplace (hfile ▸ hinside)

end Resolver
end AssemblyBrowser
