import AssemblyBrowser.Proofs.SearchOrder

/-!
# Modes of searches

Most modes search the same definitions and differ in which kinds of them they
ask for, so each gives a part of what the widest one gives, in the same order.
Nothing else depends on the mode: types and members together are all that is
found, and the members are apart by their kinds.
-/

namespace AssemblyBrowser

open scoped List

/-!
## Searches that filter others
-/

theorem SearchMatch.sort_filter (found : List SearchMatch) (keep : SearchMatch → Bool) :
    sort (found.filter keep) = (sort found).filter keep :=
  StableSort.mergeSort_filter mayPrecede_trans mayPrecede_total found keep

namespace SearchMode

/-- Whether types or members are searched by their names. -/
def searchesByName : SearchMode → Bool
  | typeAndMember => true
  | type => true
  | member => true
  | method => true
  | field => true
  | property => true
  | event => true
  | _ => false

/-- Whether types or members are searched, by whatever is known of them. -/
def searchesDefinitions (mode : SearchMode) : Bool :=
  mode.searchesByName || mode == .literal || mode == .token

end SearchMode

namespace SearchRequest

variable {request narrower : SearchRequest} {place : PlacedModule}

theorem matchesIn_of_searchesDefinitions (h : request.mode.searchesDefinitions = true)
    (archive : LoadedArchive) : request.matchesIn archive =
      (archive.modules.filter fun place =>
        request.coversArchive archive (some place.code)).flatMap request.moduleMatches := by
  unfold matchesIn
  cases hmode : request.mode with
  | archive text =>
      rw [hmode] at h
      cases h
  | resource =>
      rw [hmode] at h
      cases h
  | _ => rfl

/-- Without an archive as its scope a search finds what it finds in all modules. -/
theorem search_perm_modules (hmode : request.mode.searchesDefinitions = true)
    (harchive : request.inArchive = none) (hasks : request.isEmpty = false) (store : Store) :
    (store.search request).Perm (store.modules.flatMap request.moduleMatches) := by
  have hmatches (archive : LoadedArchive) :
      request.matchesIn archive = archive.modules.flatMap request.moduleMatches := by
    have hcovered : (archive.modules.filter fun place =>
        request.coversArchive archive (some place.code)) = archive.modules :=
      List.filter_eq_self.mpr fun place _ => by simp [coversArchive, harchive]
    rw [matchesIn_of_searchesDefinitions hmode, hcovered]
  unfold Store.search Store.modules
  rw [hasks, List.flatMap_assoc, funext hmatches]
  exact List.mergeSort_perm _ _

theorem moduleMatches_of_searchesByName (h : request.mode.searchesByName = true)
    (place : PlacedModule) : request.moduleMatches place = request.definitionMatches place := by
  unfold moduleMatches
  cases hmode : request.mode with
  | namespaceMode | token | literal | resource =>
      rw [hmode] at h
      cases h
  | _ => rfl

/-- If a request finds a part of what another one finds in each module, and in the same order, then
it does so in all modules together. -/
theorem search_eq_filter {store : Store} {keep : SearchMatch → Bool}
    (hmode : request.mode.searchesDefinitions = true)
    (hnarrower : narrower.mode.searchesDefinitions = true)
    (hasks : narrower.isEmpty = request.isEmpty) (harchive : narrower.inArchive = request.inArchive)
    (hmodules : ∀ place ∈ store.modules,
      narrower.moduleMatches place = (request.moduleMatches place).filter keep) :
    store.search narrower = (store.search request).filter keep := by
  have hcovers : narrower.coversArchive = request.coversArchive := by
    unfold coversArchive
    rw [harchive]
  have hmatches : ∀ archive ∈ store.archives,
      narrower.matchesIn archive = (request.matchesIn archive).filter keep := by
    intro archive hmem
    rw [matchesIn_of_searchesDefinitions hmode, matchesIn_of_searchesDefinitions hnarrower,
      hcovers, List.filter_flatMap]
    refine List.flatMap_congr fun place hplace => hmodules place ?_
    exact List.mem_flatMap.mpr ⟨archive, hmem, List.mem_of_mem_filter hplace⟩
  unfold Store.search
  rw [hasks]
  cases request.isEmpty with
  | true => rfl
  | false =>
      have hfound : store.archives.flatMap narrower.matchesIn =
          (store.archives.flatMap request.matchesIn).filter keep := by
        rw [List.filter_flatMap]
        exact List.flatMap_congr hmatches
      simp only [Bool.false_eq_true, if_false]
      rw [hfound, SearchMatch.sort_filter]

/-!
## Modes as filters
-/

/-- The same request in another mode. -/
def inMode (request : SearchRequest) (mode : SearchMode) : SearchRequest := { request with mode }

end SearchRequest

namespace SearchMode

/-- Whether definitions that are shown as nodes of a kind are searched for. -/
def wants (mode : SearchMode) (kind : NodeKind) : Bool :=
  if kind.isType then mode.wantsTypes else mode.wantsMember kind

/-- Whether a match is one that a mode asks for. -/
def keeps (mode : SearchMode) (found : SearchMatch) : Bool := mode.wants found.node.address.kind

theorem wants_ofTypeKind (mode : SearchMode) (kind : TypeKind) :
    mode.wants (.ofTypeKind kind) = mode.wantsTypes := by
  cases kind <;> rfl

theorem wantsMember_eq (mode : SearchMode) (kind : NodeKind) :
    mode.wantsMember kind = (kind.isMember && mode.wants kind) := by
  cases mode <;> cases kind <;> rfl

end SearchMode

theorem PlacedModule.kind_entityNode (place : PlacedModule) (entity : Entity) :
    (place.entityNode entity).address.kind = .ofEntity entity := by
  cases entity <;> rfl

namespace SearchRequest

variable {request : SearchRequest} {mode : SearchMode} {place : PlacedModule}

theorem filter_match (condition : Bool) (found : SearchMatch) (keep : SearchMatch → Bool) :
    (if condition then [found] else []).filter keep =
      if condition && keep found then [found] else [] := by
  cases condition with
  | false => rfl
  | true => simp [List.filter_singleton]

theorem typeMatch_inMode (type : TypeDefinition) :
    (request.inMode mode).typeMatch place type =
      ((request.inMode .typeAndMember).typeMatch place type).filter mode.keeps := by
  have hkeeps (fitness : Fitness) :
      mode.keeps { node := place.typeNode type, fitness } = mode.wantsTypes :=
    mode.wants_ofTypeKind type.kind
  unfold typeMatch
  rw [filter_match, hkeeps, Bool.and_comm (request.inMode mode).mode.wantsTypes]
  rfl

theorem memberMatch_inMode (type : TypeDefinition) (entity : Entity) :
    (request.inMode mode).memberMatch place type entity =
      ((request.inMode .typeAndMember).memberMatch place type entity).filter mode.keeps := by
  have hkeeps (fitness : Fitness) :
      mode.keeps { node := place.entityNode entity, fitness } = mode.wants (.ofEntity entity) :=
    congrArg mode.wants (place.kind_entityNode entity)
  have hwants : (request.inMode mode).mode.wantsMember (.ofEntity entity) =
      ((request.inMode .typeAndMember).mode.wantsMember (.ofEntity entity)
        && mode.wants (.ofEntity entity)) :=
    mode.wantsMember_eq _
  simp only [memberMatch, filter_match, hkeeps, hwants]
  rw [Bool.and_right_comm _ (mode.wants _) (PlacedModule.isShown _),
    Bool.and_right_comm _ (mode.wants _)]
  rfl

theorem definitionMatches_inMode (place : PlacedModule) :
    (request.inMode mode).definitionMatches place =
      ((request.inMode .typeAndMember).definitionMatches place).filter mode.keeps := by
  simp only [definitionMatches, memberMatches, List.filter_flatMap, List.filter_append,
    ← typeMatch_inMode, ← memberMatch_inMode]
  rfl

/-- In each of these modes a search finds those matches of the widest one that the mode asks
for, and finds them in the same order. -/
theorem search_inMode (store : Store) (request : SearchRequest)
    (hmode : mode.searchesByName = true) :
    store.search (request.inMode mode) =
      (store.search (request.inMode .typeAndMember)).filter mode.keeps := by
  refine search_eq_filter rfl ?_ rfl rfl fun place _ => ?_
  · unfold SearchMode.searchesDefinitions
    rw [show (request.inMode mode).mode.searchesByName = true from hmode]
    rfl
  · rw [moduleMatches_of_searchesByName hmode, moduleMatches_of_searchesByName rfl]
    exact definitionMatches_inMode place

/-!
## Parts of a mode
-/

variable {α : Type} {whole : α → Bool} {parts : List (α → Bool)}

/-- If what satisfies a condition satisfies exactly one of its parts, and nothing else satisfies
any, then the items that satisfy the condition fall into those that satisfy each part. -/
theorem filter_perm_flatMap
    (h : ∀ item, (parts.countP fun part => part item) = if whole item then 1 else 0)
    (items : List α) : (items.filter whole).Perm (parts.flatMap items.filter) := by
  induction parts generalizing whole with
  | nil =>
      have hnone : items.filter whole = [] := List.filter_eq_nil_iff.mpr fun item _ hwhole => by
        have hcount := h item
        rw [if_pos hwhole] at hcount
        cases hcount
      rw [hnone]
      exact .nil
  | cons part parts ih =>
      -- What the first part leaves of the condition falls into the other parts.
      have hstep : ∀ item, (part item = true → whole item = true) ∧
          (parts.countP fun part => part item) = if !part item && whole item then 1 else 0 := by
        intro item
        have hcount := h item
        rw [List.countP_cons] at hcount
        cases hpart : part item <;> cases hwhole : whole item <;> simp_all
      have hpart : (items.filter whole).filter part = items.filter part := by
        rw [List.filter_filter]
        refine List.filter_congr fun item _ => ?_
        rw [Bool.and_eq_left_iff_imp]
        exact (hstep item).1
      calc items.filter whole
        _ ~ (items.filter whole).filter part ++
              (items.filter whole).filter (fun item => !part item) :=
            (List.filter_append_perm part _).symm
        _ ~ items.filter part ++ parts.flatMap items.filter := by
            rw [hpart, List.filter_filter]
            exact (ih fun item => (hstep item).2).append_left _

theorem pairwise_disjoint_filter
    (h : ∀ item, (parts.countP fun part => part item) ≤ 1) (items : List α) :
    (parts.map items.filter).Pairwise List.Disjoint := by
  induction parts with
  | nil => exact .nil
  | cons part parts ih =>
      have hrest (item : α) : (parts.countP fun part => part item) ≤ 1 := by
        have hcount := h item
        rw [List.countP_cons] at hcount
        omega
      refine List.pairwise_cons.mpr ⟨fun found hfound item hitem hother => ?_, ih hrest⟩
      rcases List.mem_map.mp hfound with ⟨other, hmem, rfl⟩
      have hpositive : 0 < parts.countP fun part => part item :=
        List.countP_pos_iff.mpr ⟨other, hmem, (List.mem_filter.mp hother).2⟩
      have hcount := h item
      rw [List.countP_cons, if_pos (List.mem_filter.mp hitem).2] at hcount
      omega

end SearchRequest

/-- What a mode asks for is asked for by exactly one of its parts, and nothing else by any. -/
def SearchMode.HasParts (whole : SearchMode) (parts : List SearchMode) : Prop :=
  ∀ kind, (parts.countP fun part => part.wants kind) = if whole.wants kind then 1 else 0

theorem SearchMode.typeAndMember_hasParts : typeAndMember.HasParts [type, member] := by
  intro kind
  cases kind <;> rfl

theorem SearchMode.member_hasParts : member.HasParts [method, field, property, event] := by
  intro kind
  cases kind <;> rfl

namespace Store

/-- What a mode finds falls into what its parts find, and nothing is found by two of them. -/
theorem search_parts {whole : SearchMode} {parts : List SearchMode} (h : whole.HasParts parts)
    (hwhole : whole.searchesByName = true) (hparts : ∀ part ∈ parts, part.searchesByName = true)
    (store : Store) (request : SearchRequest) :
    (store.search (request.inMode whole)).Perm
        (parts.flatMap fun part => store.search (request.inMode part)) ∧
      (parts.map fun part => store.search (request.inMode part)).Pairwise List.Disjoint := by
  have hcount (found : SearchMatch) :
      ((parts.map SearchMode.keeps).countP fun keeps => keeps found) =
        if whole.keeps found then 1 else 0 := by
    rw [List.countP_map]
    exact h found.node.address.kind
  have hsearch : ∀ part ∈ parts, store.search (request.inMode part) =
      (store.search (request.inMode .typeAndMember)).filter part.keeps := fun part hmem =>
    SearchRequest.search_inMode store request (hparts part hmem)
  rw [SearchRequest.search_inMode store request hwhole, List.flatMap_congr hsearch,
    List.map_congr_left hsearch]
  constructor
  · simpa [List.flatMap_map] using SearchRequest.filter_perm_flatMap hcount _
  · simpa [Function.comp_def] using SearchRequest.pairwise_disjoint_filter
      (fun found => (hcount found).trans_le (by split <;> decide)) _

/-- Types and members together are what a search finds, and the members are methods, fields,
properties and events; nothing is found in two of the parts. -/
theorem search_modes_partition (store : Store) (request : SearchRequest) :
    let found (mode : SearchMode) := store.search (request.inMode mode)
    (found .typeAndMember).Perm (found .type ++ found .member) ∧
      (found .type).Disjoint (found .member) ∧
      (found .member).Perm (found .method ++ found .field ++ found .property ++ found .event) ∧
      [found .method, found .field, found .property, found .event].Pairwise List.Disjoint := by
  intro found
  obtain ⟨hall, hapart⟩ := search_parts SearchMode.typeAndMember_hasParts rfl
    (by decide) store request
  obtain ⟨hmembers, hmembersApart⟩ := search_parts SearchMode.member_hasParts rfl
    (by decide) store request
  refine ⟨?_, ?_, ?_, hmembersApart⟩
  · simpa using hall
  · simpa using hapart
  · simpa using hmembers

end Store
end AssemblyBrowser
