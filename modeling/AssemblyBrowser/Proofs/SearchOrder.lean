import Mathlib.Algebra.Order.Field.Basic
import Mathlib.Data.Rat.Cast.Order
import AssemblyBrowser.Proofs.Interleavings
import AssemblyBrowser.Proofs.StoreInvariant
import AssemblyBrowser.Search.Scan

/-!
# The order of search results

The matches of a search come from several archives at once. Their order does not
depend on how the archives take turns: the comparison is a total preorder, it
tells the archives apart, and matches that it cannot tell apart keep the order
of their archive.
-/

namespace AssemblyBrowser

open Std (TransCmp OrientedCmp)

/-!
## Comparing texts and names
-/

namespace NodeAddress

theorem compareText_isLE_iff {first second : String} :
    (compareText first second).isLE = true ↔ first ≤ second := by
  unfold compareText
  split
  case isTrue hlt => simpa using String.not_lt.mp (String.lt_asymm hlt)
  case isFalse hge =>
    split
    case isTrue hgt => simpa using hgt
    case isFalse hle => simpa using String.not_lt.mp hle

theorem compareText_eq_eq {first second : String} (h : compareText first second = .eq) :
    first = second := by
  unfold compareText at h
  split at h
  · cases h
  · split at h
    · cases h
    · exact String.le_antisymm (String.not_lt.mp ‹_›) (String.not_lt.mp ‹_›)

instance : TransCmp compareText where
  eq_swap := by
    intro first second
    unfold compareText
    by_cases hlt : first < second
    · rw [if_pos hlt, if_neg (String.lt_asymm hlt), if_pos hlt]
      rfl
    · by_cases hgt : second < first
      · rw [if_neg hlt, if_pos hgt, if_pos hgt]
        rfl
      · rw [if_neg hlt, if_neg hgt, if_neg hgt, if_neg hlt]
        rfl
  isLE_trans := by
    intro first second third hfirst hsecond
    rw [compareText_isLE_iff] at hfirst hsecond ⊢
    exact String.le_trans hfirst hsecond

end NodeAddress

namespace Fitness

/-- How well a name fits, as a fraction: one over the length, and nothing for made-up names. -/
def value : Fitness → Rat
  | generated => 0
  | ofLength length _ => 1 / length

theorem value_pos (length : Nat) (positive : 0 < length) :
    0 < (ofLength length positive).value := by
  unfold value
  exact one_div_pos.mpr (Nat.cast_pos.mpr positive)

/-- The best name first is the greatest fraction first. -/
theorem compareBest_eq (first second : Fitness) :
    first.compareBest second = compare second.value first.value := by
  cases first with
  | generated =>
      cases second with
      | generated => exact (compare_eq_iff_eq.mpr rfl).symm
      | ofLength length positive => exact (compare_gt_iff_gt.mpr (value_pos length positive)).symm
  | ofLength length positive =>
      cases second with
      | generated => exact (compare_lt_iff_lt.mpr (value_pos length positive)).symm
      | ofLength other hother =>
          have hlength : (0 : Rat) < length := Nat.cast_pos.mpr positive
          have hpositive : (0 : Rat) < other := Nat.cast_pos.mpr hother
          change compare length other = compare (1 / (other : Rat)) (1 / (length : Rat))
          rcases Nat.lt_trichotomy length other with hlt | heq | hgt
          · rw [compare_lt_iff_lt.mpr hlt]
            exact (compare_lt_iff_lt.mpr
              (one_div_lt_one_div_of_lt hlength (Nat.cast_lt.mpr hlt))).symm
          · rw [heq, compare_eq_iff_eq.mpr rfl, compare_eq_iff_eq.mpr rfl]
          · rw [compare_gt_iff_gt.mpr hgt]
            exact (compare_gt_iff_gt.mpr
              (one_div_lt_one_div_of_lt hpositive (Nat.cast_lt.mpr hgt))).symm

instance : TransCmp compareBest where
  eq_swap := by
    intro first second
    rw [compareBest_eq, compareBest_eq]
    exact OrientedCmp.eq_swap
  isLE_trans := by
    intro first second third hfirst hsecond
    rw [compareBest_eq] at hfirst hsecond ⊢
    exact TransCmp.isLE_trans hsecond hfirst

end Fitness

namespace SearchMatch

/-- The four keys, one after the other. -/
theorem compare_eq_lex :
    compare =
      compareLex
        (compareLex
          (compareLex (fun first second => NodeAddress.compareText first.name second.name)
            fun first second => first.fitness.compareBest second.fitness)
          fun first second => NodeAddress.compareText first.location second.location)
        fun first second => NodeAddress.compareText first.archivePath second.archivePath := rfl

/-- A comparison of one key of a match. -/
theorem transCmp_key {β : Type} (key : SearchMatch → β) (cmp : β → β → Ordering) [TransCmp cmp] :
    TransCmp fun first second : SearchMatch => cmp (key first) (key second) where
  eq_swap := OrientedCmp.eq_swap
  isLE_trans := TransCmp.isLE_trans

instance : TransCmp compare := by
  rw [compare_eq_lex]
  have hname := transCmp_key name NodeAddress.compareText
  have hfitness := transCmp_key fitness Fitness.compareBest
  have hlocation := transCmp_key location NodeAddress.compareText
  have harchive := transCmp_key archivePath NodeAddress.compareText
  infer_instance

/-- Matches that compare equal are in the same archive. -/
theorem archivePath_of_compare_eq {first second : SearchMatch} (h : compare first second = .eq) :
    first.archivePath = second.archivePath := by
  rw [compare_eq_lex, compareLex_eq_eq] at h
  exact NodeAddress.compareText_eq_eq h.2

end SearchMatch

/-!
## Where matches are

Every match that an archive gives is in that archive.
-/

namespace PlacedModule

theorem archivePath_entityNode (place : PlacedModule) (entity : Entity) :
    (place.entityNode entity).address.archivePath = place.archivePath := by
  cases entity <;> rfl

end PlacedModule

namespace SearchRequest

variable {request : SearchRequest} {place : PlacedModule} {found : SearchMatch}

theorem archivePath_memberMatch {type : TypeDefinition} {entity : Entity}
    (h : found ∈ request.memberMatch place type entity) : found.archivePath = place.archivePath := by
  simp only [memberMatch, List.mem_ite_nil_right, List.mem_singleton] at h
  rw [h.2]
  exact place.archivePath_entityNode entity

theorem archivePath_typeMatch {type : TypeDefinition}
    (h : found ∈ request.typeMatch place type) : found.archivePath = place.archivePath := by
  simp only [typeMatch, List.mem_ite_nil_right, List.mem_singleton] at h
  rw [h.2]
  rfl

theorem archivePath_definitionMatches (h : found ∈ request.definitionMatches place) :
    found.archivePath = place.archivePath := by
  rcases List.mem_flatMap.mp h with ⟨type, _, hfound⟩
  rcases List.mem_append.mp hfound with htype | hmember
  · exact archivePath_typeMatch htype
  · rcases List.mem_flatMap.mp hmember with ⟨entity, _, hentity⟩
    exact archivePath_memberMatch hentity

theorem archivePath_namespaceMatches (h : found ∈ request.namespaceMatches place) :
    found.archivePath = place.archivePath := by
  rcases List.mem_map.mp h with ⟨name, _, hfound⟩
  rw [← hfound]
  rfl

theorem archivePath_tokenMatches (h : found ∈ request.tokenMatches place) :
    found.archivePath = place.archivePath := by
  rcases List.mem_flatMap.mp h with ⟨entity, _, hfound⟩
  split at hfound
  · rw [List.mem_singleton.mp hfound]
    exact place.archivePath_entityNode entity
  · cases hfound

theorem archivePath_literalMatches (h : found ∈ request.literalMatches place) :
    found.archivePath = place.archivePath := by
  rcases List.mem_map.mp h with ⟨field, _, hfound⟩
  rw [← hfound]
  exact place.archivePath_entityNode (.field field)

theorem archivePath_resourceMatches (h : found ∈ request.resourceMatches place) :
    found.archivePath = place.archivePath := by
  rcases List.mem_map.mp h with ⟨resource, _, hfound⟩
  rw [← hfound]
  rfl

theorem archivePath_moduleMatches (h : found ∈ request.moduleMatches place) :
    found.archivePath = place.archivePath := by
  unfold moduleMatches at h
  split at h
  · exact archivePath_namespaceMatches h
  · exact archivePath_tokenMatches h
  · exact archivePath_literalMatches h
  · exact archivePath_resourceMatches h
  · exact archivePath_definitionMatches h

variable {archive : LoadedArchive}

theorem archivePath_archiveMatch {text : ArchiveText}
    (h : found ∈ request.archiveMatch text archive) : found.archivePath = archive.path := by
  simp only [archiveMatch, List.mem_ite_nil_right, List.mem_singleton] at h
  rw [h.2]
  change archive.node.address.archivePath = archive.path
  unfold LoadedArchive.node
  split <;> rfl

theorem archivePath_entryMatches (h : found ∈ request.entryMatches archive) :
    found.archivePath = archive.path := by
  unfold entryMatches at h
  split at h
  · cases h
  · rcases List.mem_map.mp h with ⟨entry, _, hfound⟩
    rw [← hfound]
    rfl

end SearchRequest

namespace LoadedArchive

theorem archivePath_of_place {archive : LoadedArchive} {entry : Option String}
    {place : PlacedModule} (h : archive.place entry = .ok place) :
    place.archivePath = archive.path := by
  rcases Outcome.bind_eq_ok.mp h with ⟨code, _, hplace⟩
  rw [← Outcome.pure_eq_ok.mp hplace]

theorem archivePath_of_mem_modules {archive : LoadedArchive} {place : PlacedModule}
    (h : place ∈ archive.modules) : place.archivePath = archive.path := by
  unfold modules at h
  split at h
  · cases h
  · rw [List.mem_singleton.mp h]
  · rcases List.mem_filterMap.mp h with ⟨entry, _, hplace⟩
    cases houtcome : archive.place (some entry.path) with
    | ok found =>
        rw [houtcome] at hplace
        rw [← Option.some.inj hplace]
        exact archivePath_of_place houtcome
    | error error =>
        rw [houtcome] at hplace
        cases hplace

end LoadedArchive

namespace SearchRequest

theorem archivePath_matchesIn {request : SearchRequest} {archive : LoadedArchive}
    {found : SearchMatch} (h : found ∈ request.matchesIn archive) :
    found.archivePath = archive.path := by
  unfold matchesIn at h
  split at h
  · exact archivePath_archiveMatch h
  · rcases List.mem_append.mp h with hentry | hmodule
    · split at hentry
      · exact archivePath_entryMatches hentry
      · cases hentry
    · rcases List.mem_flatMap.mp hmodule with ⟨place, hplace, hfound⟩
      rw [archivePath_moduleMatches hfound]
      exact LoadedArchive.archivePath_of_mem_modules (List.mem_of_mem_filter hplace)

end SearchRequest

/-!
## The sorted matches
-/

namespace SearchMatch

theorem compare_swap (first second : SearchMatch) :
    compare first second = (compare second first).swap := OrientedCmp.eq_swap

/-- Whether one match may stand in front of another. -/
def mayPrecede (first second : SearchMatch) : Bool := (compare first second).isLE

theorem mayPrecede_trans (first second third : SearchMatch)
    (hfirst : mayPrecede first second = true) (hsecond : mayPrecede second third = true) :
    mayPrecede first third = true :=
  TransCmp.isLE_trans hfirst hsecond

theorem mayPrecede_total (first second : SearchMatch) :
    (mayPrecede first second || mayPrecede second first) = true := by
  unfold mayPrecede
  rw [compare_swap second first]
  cases compare first second <;> rfl

theorem tied_eq_false {first second : SearchMatch} (h : first.archivePath ≠ second.archivePath) :
    StableSort.tied mayPrecede first second = false := by
  unfold StableSort.tied mayPrecede
  rw [compare_swap second first]
  cases hcompare : compare first second with
  | lt => rfl
  | gt => rfl
  | eq => exact absurd (archivePath_of_compare_eq hcompare) h

end SearchMatch

namespace Store

/-- However the archives take turns, the sorted matches are the same. -/
theorem sort_interleaving {store : Store} (h : store.paths.Nodup) (request : SearchRequest)
    {found : List SearchMatch}
    (hfound : Interleaving (store.archives.map request.matchesIn) found) :
    SearchMatch.sort found = SearchMatch.sort (store.archives.flatMap request.matchesIn) := by
  rw [List.flatMap_def]
  refine StableSort.mergeSort_interleaving SearchMatch.mayPrecede_trans
    SearchMatch.mayPrecede_total hfound ?_
  rw [List.pairwise_map]
  refine (List.pairwise_map.mp h).imp ?_
  intro first second hne a ha b hb
  apply SearchMatch.tied_eq_false
  rw [SearchRequest.archivePath_matchesIn ha, SearchRequest.archivePath_matchesIn hb]
  exact hne

end Store

namespace Worker

/-- The comparison of matches is a total preorder that takes fitness as a fraction, and whatever
the worker has opened and closed before, all interleavings of the matches of the open archives
sort to the same list, which is the answer to the search. -/
theorem search_independent_of_schedule :
    (∀ first second, SearchMatch.compare first second =
        (SearchMatch.compare second first).swap) ∧
      (∀ first second third, (SearchMatch.compare first second).isLE = true →
        (SearchMatch.compare second third).isLE = true →
          (SearchMatch.compare first third).isLE = true) ∧
      (∀ first second : Fitness,
        first.compareBest second = compare second.value first.value) ∧
      ∀ (sessionFile : Option String) (files : FileSystem) (events : List WorkerEvent)
        (request : SearchRequest) (found other : List SearchMatch),
        let store := ((start sessionFile files).run events).store
        Interleaving (store.archives.map request.matchesIn) found →
          Interleaving (store.archives.map request.matchesIn) other →
            SearchMatch.sort found = SearchMatch.sort other ∧
              (request.isEmpty = false → store.search request = SearchMatch.sort found) := by
  refine ⟨?_, ?_, Fitness.compareBest_eq, ?_⟩
  · intro first second
    exact OrientedCmp.eq_swap
  · intro first second third hfirst hsecond
    exact TransCmp.isLE_trans hfirst hsecond
  · intro sessionFile files events request found other store hfound hother
    have hpaths : store.paths.Nodup := (wellFormed_run events Store.empty_wellFormed).paths_nodup
    have hsorted := Store.sort_interleaving hpaths request hfound
    refine ⟨hsorted.trans (Store.sort_interleaving hpaths request hother).symm, ?_⟩
    intro hasked
    rw [Store.search, hasked, hsorted]
    rfl

/-- The store after two libraries were opened. -/
def twoLibraries : Store :=
  ((start none {}).run [plainly (.add "/b.dll" none), plainly (.add "/a.dll" none)]).store

/-- A search for archives by their paths. -/
def libraryRequest : SearchRequest :=
  { mode := .archive .filePath, keywords := [{ kind := .contains, text := "DLL" }] }

/-- The match of a library in the root directory. -/
def libraryMatch (name : String) : SearchMatch :=
  { node :=
      { address := .assembly ("/" ++ name) none
        displayName := name
        description := "/" ++ name
        mayHaveChildren := true
        badges := .when false .autoLoaded }
    fitness := .ofName name }

/-- Two libraries give a match each, and it does not matter which is found first. -/
theorem search_independent_of_schedule_two :
    twoLibraries.archives.map libraryRequest.matchesIn =
        [[libraryMatch "b.dll"], [libraryMatch "a.dll"]] ∧
      SearchMatch.sort [libraryMatch "b.dll", libraryMatch "a.dll"] =
        SearchMatch.sort [libraryMatch "a.dll", libraryMatch "b.dll"] ∧
      twoLibraries.search libraryRequest =
        SearchMatch.sort [libraryMatch "b.dll", libraryMatch "a.dll"] := by
  have hmatches : twoLibraries.archives.map libraryRequest.matchesIn =
      [[libraryMatch "b.dll"], [libraryMatch "a.dll"]] := by decide +kernel
  have hdone : Interleaving [[], []] ([] : List SearchMatch) := Interleaving.done (by simp)
  have hinOrder : Interleaving (twoLibraries.archives.map libraryRequest.matchesIn)
      [libraryMatch "b.dll", libraryMatch "a.dll"] := by
    rw [hmatches]
    exact @Interleaving.next _ [] _ _ _ _ (@Interleaving.next _ [[]] _ _ _ _ hdone)
  have hswapped : Interleaving (twoLibraries.archives.map libraryRequest.matchesIn)
      [libraryMatch "a.dll", libraryMatch "b.dll"] := by
    rw [hmatches]
    exact @Interleaving.next _ [[libraryMatch "b.dll"]] _ _ _ _
      (@Interleaving.next _ [] _ _ _ _ hdone)
  have hsearch := search_independent_of_schedule.2.2.2 none {}
    [plainly (.add "/b.dll" none), plainly (.add "/a.dll" none)] libraryRequest _ _
    hinOrder hswapped
  exact ⟨hmatches, hsearch.1, hsearch.2 rfl⟩

end Worker
end AssemblyBrowser
