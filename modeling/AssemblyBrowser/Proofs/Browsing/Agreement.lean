import AssemblyBrowser.Proofs.Browsing.Nodes
import AssemblyBrowser.Proofs.Addresses.Places
import AssemblyBrowser.Proofs.Search.Modes

/-!
# Searching and browsing agree

A search goes through the types of a module row by row, and browsing comes to
them from their namespaces and from the types around them. Each has its own
conditions on what it leaves out. In a well-nested module both lead to the same
nodes.
-/

namespace AssemblyBrowser

open scoped List

/-!
## Browsing
-/

namespace Store

variable {store : Store} {resolver : Resolver} {source : ArchiveSource} {place : PlacedModule}

/-- Nodes under types that stay closed lead to the members of the types. -/
theorem unfolds_closedNodes (h : place.code.Browsable) {types : List TypeDefinition}
    (hrows : ∀ type ∈ types, type ∈ place.code.types) :
    Unfolds store resolver source (types.flatMap place.closedNodes)
      (types.flatMap place.ownMemberNodes) := by
  have hdefinitions : (types.flatMap place.closedNodes).filter Node.isDefinition =
      types.flatMap place.ownMemberNodes := by
    rw [List.filter_flatMap]
    exact List.flatMap_congr fun type htype =>
      PlacedModule.definitions_closedNodes h (hrows type htype)
  rw [← hdefinitions]
  refine .of_closed fun node hnode => ?_
  rcases List.mem_flatMap.mp hnode with ⟨type, htype, hmem⟩
  exact PlacedModule.isUnfolded_closedNodes h (hrows type htype) hmem

/-- Types unfold to themselves, to their members, and to what the types inside them unfold to. -/
theorem unfolds_types (hpaths : store.paths.Nodup) (hplace : place ∈ store.modules)
    (h : place.code.Browsable) {types : List TypeDefinition}
    (hrows : ∀ type ∈ types, type ∈ place.code.types) {deeper : List Node}
    (hdeeper : Unfolds store resolver source
      ((types.flatMap place.code.typesInside).map place.typeNode) deeper) :
    ∃ reached, Unfolds store resolver source (types.map place.typeNode) reached ∧
      reached.Perm (types.flatMap place.ownNodes ++ deeper) := by
  have hunder : (types.flatMap place.typeChildren).Perm
      ((types.flatMap place.code.typesInside).map place.typeNode
        ++ types.flatMap place.closedNodes) := by
    refine (List.Perm.flatMap_left _ fun type htype =>
      PlacedModule.typeChildren_perm h (hrows type htype)).trans ?_
    rw [List.map_flatMap]
    exact (List.flatMap_append_perm _ _ _).symm
  have hcounted : (types.map place.typeNode).filter Node.isDefinition =
      types.map place.typeNode := by
    refine List.filter_eq_self.mpr fun node hnode => ?_
    rcases List.mem_map.mp hnode with ⟨type, _, rfl⟩
    exact place.isDefinition_typeNode type
  rcases (hdeeper.append (unfolds_closedNodes h hrows)).perm hunder.symm with
    ⟨below, hbelow, hbelowPerm⟩
  rcases Unfolds.of_level (fun type _ => place.isUnfolded_typeNode type)
    (fun type htype => children_typeNode hpaths hplace (h.type?_token (hrows type htype)))
    hbelow with ⟨reached, hreached, hreachedPerm⟩
  refine ⟨reached, hreached, hreachedPerm.trans ?_⟩
  rw [hcounted]
  calc types.map place.typeNode ++ below
    _ ~ types.map place.typeNode ++ (deeper ++ types.flatMap place.ownMemberNodes) :=
        hbelowPerm.symm.append_left _
    _ ~ types.map place.typeNode ++ (types.flatMap place.ownMemberNodes ++ deeper) :=
        List.perm_append_comm.append_left _
    _ ~ types.flatMap place.ownNodes ++ deeper := by
        rw [← List.append_assoc]
        exact (List.map_append_flatMap_perm _ _ _).append_right deeper

/-- The types at a depth unfold to those at all depths from there on, with their members. -/
theorem unfolds_typesAt (hpaths : store.paths.Nodup) (hplace : place ∈ store.modules)
    (h : place.code.Browsable) {bound : Nat}
    (hbound : ∀ type ∈ place.code.types, ∀ depth, place.code.StandsAt depth type → depth < bound)
    (count depth : Nat) (hreach : depth + count = bound) :
    ∃ reached, Unfolds store resolver source ((place.code.typesAt depth).map place.typeNode)
        reached ∧
      reached.Perm
        (((List.range' depth count).flatMap place.code.typesAt).flatMap place.ownNodes) := by
  induction count generalizing depth with
  | zero =>
      -- No type stands as deep as the bound, so there is nothing left to unfold.
      have hempty : place.code.typesAt depth = [] := by
        refine List.eq_nil_iff_forall_not_mem.mpr fun type htype => ?_
        rcases h.mem_typesAt_iff.mp htype with ⟨hmem, _, hstands⟩
        have hlt := hbound type hmem depth hstands
        omega
      rw [hempty]
      exact ⟨[], .nil, .refl []⟩
  | succ count ih =>
      rcases ih (depth + 1) (by omega) with ⟨deeper, hdeeper, hdeeperPerm⟩
      rcases unfolds_types hpaths hplace h (fun type htype => (h.mem_typesAt_iff.mp htype).1)
        hdeeper with ⟨reached, hreached, hperm⟩
      refine ⟨reached, hreached, hperm.trans ?_⟩
      rw [List.range'_succ, List.flatMap_cons, List.flatMap_append]
      exact hdeeperPerm.append_left _

/-- Browsing a module leads to all its types, but for the row for what belongs to no type, and to
the members that they show. -/
theorem exists_browses (hpaths : store.paths.Nodup) (hplace : place ∈ store.modules)
    (h : place.code.Browsable) :
    ∃ reached, Browses store resolver source place reached ∧
      reached.Perm ((place.code.types.toList.filter fun type =>
        type.name != modulePseudoType).flatMap place.ownNodes) := by
  rcases h.exists_bound with ⟨bound, hbound⟩
  rcases unfolds_typesAt hpaths hplace h hbound bound 0 (Nat.zero_add bound) with
    ⟨types, htypes, htypesPerm⟩
  have hunder : (place.code.namespaces.flatMap place.namespaceChildren).Perm
      ((place.code.typesAt 0).map place.typeNode) := by
    refine (List.Perm.flatMap_left _ fun name _ => Node.sortByName_perm _).trans ?_
    rw [← List.map_flatMap]
    exact h.typesInNamespaces_perm.map _
  rcases htypes.perm hunder.symm with ⟨below, hbelow, hbelowPerm⟩
  rcases Unfolds.of_level (fun name _ => rfl)
    (fun name _ => children_namespaceNode hpaths hplace name) hbelow with
    ⟨shown, hshown, hshownPerm⟩
  have hothers : Unfolds store resolver source place.otherNodes [] := by
    have hnone : place.otherNodes.filter Node.isDefinition = [] :=
      List.filter_eq_nil_iff.mpr fun node hnode => by
        simp [(PlacedModule.kind_of_mem_otherNodes hnode).2]
    rw [← hnone]
    exact .of_closed fun node hnode => (PlacedModule.kind_of_mem_otherNodes hnode).1
  rcases (hshown.append hothers).perm place.children_perm.symm with
    ⟨reached, hreached, hreachedPerm⟩
  have hnamespaces : (place.code.namespaces.map place.namespaceNode).filter Node.isDefinition =
      [] := by
    refine List.filter_eq_nil_iff.mpr fun node hnode => ?_
    rcases List.mem_map.mp hnode with ⟨name, _, rfl⟩
    exact Bool.false_ne_true
  refine ⟨reached, ⟨place.children, children_assembly hpaths hplace, hreached⟩, ?_⟩
  rw [List.append_nil] at hreachedPerm
  rw [hnamespaces, List.nil_append] at hshownPerm
  rw [← List.range_eq_range'] at htypesPerm
  calc reached
    _ ~ shown := hreachedPerm.symm
    _ ~ below := hshownPerm
    _ ~ types := hbelowPerm.symm
    _ ~ ((List.range bound).flatMap place.code.typesAt).flatMap place.ownNodes := htypesPerm
    _ ~ _ := (h.typesAt_perm hbound).flatMap_right _

end Store

/-!
## Searching
-/

/-- A pattern without any condition matches every text, in front of its first character. -/
theorem Pattern.occursIn_empty (text : String) : Pattern.empty.occursIn text = true := by
  unfold occursIn ends
  cases text.toList <;> rfl

namespace SearchRequest

variable {request : SearchRequest} {place : PlacedModule}

/-- A request for all types and members, whatever their names and wherever they are. -/
structure FindsAll (request : SearchRequest) : Prop where
  mode : request.mode = .typeAndMember
  asks : request.isEmpty = false
  accepts : ∀ name, request.accepts name = true
  inNamespace : request.inNamespace = none
  inArchive : request.inArchive = none

/-- The nodes that are found in a module. -/
def nodesIn (request : SearchRequest) (place : PlacedModule) : List Node :=
  (request.moduleMatches place).map SearchMatch.node

namespace FindsAll

theorem nodes_typeMatch (h : request.FindsAll) (place : PlacedModule) (type : TypeDefinition) :
    (request.typeMatch place type).map SearchMatch.node = [place.typeNode type] := by
  have haccepts : request.acceptsAny (request.typeNames place.code type) = true := by
    unfold acceptsAny typeNames
    split_ifs <;> simp [h.accepts]
  rw [typeMatch, h.mode, haccepts]
  rfl

theorem nodes_memberMatch (h : request.FindsAll) (place : PlacedModule) (type : TypeDefinition)
    {entity : Entity} (hmember : (NodeKind.ofEntity entity).isMember = true) :
    (request.memberMatch place type entity).map SearchMatch.node =
      ([entity].filter PlacedModule.isShown).map place.entityNode := by
  simp only [memberMatch, h.mode, h.accepts, SearchMode.wantsMember, hmember]
  cases hshown : PlacedModule.isShown entity <;> simp [hshown]

theorem nodes_memberMatches (h : request.FindsAll) (hindexed : place.code.Indexed)
    {type : TypeDefinition} (hmem : type ∈ place.code.types) :
    (request.memberMatches place type).map SearchMatch.node = place.ownMemberNodes type := by
  have hmatch : ∀ entity ∈ type.memberTokens.filterMap place.code.entity?,
      (request.memberMatch place type entity).map SearchMatch.node =
        ([entity].filter PlacedModule.isShown).map place.entityNode := by
    intro entity hentity
    rcases List.mem_filterMap.mp hentity with ⟨token, htoken, hfound⟩
    refine h.nodes_memberMatch place type (NodeKind.isMember_ofEntity fun inner hinner => ?_)
    rw [hinner] at hfound
    exact hindexed.table_ne_of_listed hmem htoken
      (CodeModule.type?_eq_some.mp (CodeModule.entity?_eq_some.mp hfound)).1
  rw [memberMatches, List.map_flatMap]
  refine (List.flatMap_congr hmatch).trans ?_
  rw [← List.map_flatMap, ← List.filter_flatMap, List.flatMap_singleton']
  rfl

/-- A search leaves out the row for what belongs to no type, and nothing else. -/
theorem coversType_eq (h : request.FindsAll) (hnested : place.code.WellNested)
    {type : TypeDefinition} (hmem : type ∈ place.code.types) :
    request.coversType place.code type = (type.name != modulePseudoType) := by
  unfold coversType coversNamespace
  rw [h.inNamespace]
  cases hpseudo : type.name == modulePseudoType with
  | true =>
      have hglobal := (hnested.pseudoType type hmem (beq_iff_eq.mp hpseudo)).2.1
      simp [bne, hpseudo, hglobal]
  | false => simp [bne, hpseudo]

/-- In a module a search finds all types and the members that they show, row by row. -/
theorem nodesIn_eq (h : request.FindsAll) (hindexed : place.code.Indexed)
    (hnested : place.code.WellNested) :
    request.nodesIn place = (place.code.types.toList.filter fun type =>
      type.name != modulePseudoType).flatMap place.ownNodes := by
  have hcovered : place.code.types.toList.filter (request.coversType place.code) =
      place.code.types.toList.filter fun type => type.name != modulePseudoType :=
    List.filter_congr fun type hmem => h.coversType_eq hnested (Array.mem_toList_iff.mp hmem)
  have hown : ∀ type ∈ place.code.types.toList.filter fun type => type.name != modulePseudoType,
      (request.typeMatch place type ++ request.memberMatches place type).map SearchMatch.node =
        place.ownNodes type := by
    intro type htype
    have hmem := Array.mem_toList_iff.mp (List.mem_of_mem_filter htype)
    rw [List.map_append, h.nodes_typeMatch, h.nodes_memberMatches hindexed hmem]
    rfl
  unfold nodesIn moduleMatches
  rw [h.mode]
  simp only [definitionMatches, hcovered, List.map_flatMap]
  exact List.flatMap_congr hown

/-- A search finds what it finds in the modules of all archives. -/
theorem search_perm (h : request.FindsAll) (store : Store) :
    ((store.search request).map SearchMatch.node).Perm
      (store.modules.flatMap request.nodesIn) := by
  have hmode : request.mode.searchesDefinitions = true := by
    rw [h.mode]
    rfl
  have hmatches := search_perm_modules hmode h.inArchive h.asks store
  refine (hmatches.map _).trans (List.Perm.of_eq ?_)
  rw [List.map_flatMap]
  rfl

end FindsAll

/-- The request that the query `//` is read as. -/
def everything : SearchRequest := { pattern := some { source := "", pattern := .empty } }

theorem parse_everything : parse "//" = .ok everything := rfl

theorem findsAll_everything : everything.FindsAll where
  mode := rfl
  asks := rfl
  accepts _ := Pattern.occursIn_empty _
  inNamespace := rfl
  inArchive := rfl

end SearchRequest

/-!
## Both together
-/

namespace Store

/-- What a search for everything finds falls into what it finds in each module. In a well-nested
module that is what browsing the module leads to, node by node. -/
theorem search_agrees_with_browsing {store : Store} {resolver : Resolver} {source : ArchiveSource}
    {request : SearchRequest} (hpaths : store.paths.Nodup) (hrequest : request.FindsAll) :
    ((store.search request).map SearchMatch.node).Perm (store.modules.flatMap request.nodesIn) ∧
      ∀ place ∈ store.modules, place.code.Browsable →
        (∃ reached, Browses store resolver source place reached) ∧
          ∀ reached, Browses store resolver source place reached →
            (request.nodesIn place).Perm reached := by
  refine ⟨hrequest.search_perm store, fun place hplace hbrowsable => ?_⟩
  rcases exists_browses hpaths hplace hbrowsable with ⟨reached, hreached, hperm⟩
  refine ⟨⟨reached, hreached⟩, fun others hothers => ?_⟩
  rw [hothers.unique hreached, hrequest.nodesIn_eq hbrowsable.indexed hbrowsable.wellNested]
  exact hperm.symm

/-- A store with one file, which holds a module. -/
def holding (code : CodeModule) : Store :=
  { archives := [(LoadedArchive.unopened "M.dll" none).withHandle (.codeModule code)] }

/-- Where the module of such a store is. -/
def onlyPlace (code : CodeModule) : PlacedModule :=
  { archivePath := "M.dll", containerPath := none, code }

theorem paths_holding (code : CodeModule) : (holding code).paths.Nodup :=
  List.nodup_singleton "M.dll"

theorem modules_holding (code : CodeModule) : (holding code).modules = [onlyPlace code] := rfl

/-- A type with another one inside it, which has a field. -/
def nestedModule : CodeModule :=
  (CodeModule.ofSteps "M"
    [.type "N" "A" .classType 0, .nestedType (TableId.typeDef.token 2) "B" .classType 0,
      .field (TableId.typeDef.token 3) "f" 0 .object]).1

theorem nestedModule_browsable : nestedModule.Browsable where
  indexed := CodeModule.indexed_ofSteps "M" _
  rowsFit := by decide
  wellNested :=
    { declared := by decide
      ends := by
        intro type hmem
        rcases Array.mem_iff_getElem.mp hmem with ⟨index, hindex, rfl⟩
        match index, hindex with
        | 0, _ => exact ⟨0, .top rfl⟩
        | 1, _ => exact ⟨0, .top rfl⟩
        | 2, _ => exact ⟨1, .inside rfl rfl (.top rfl)⟩
      nested := by decide
      members := by decide
      pseudoType := by decide }
  pseudoOnTop := by decide

theorem search_agrees_with_browsing_nested :
    (SearchRequest.everything.nodesIn (onlyPlace nestedModule)).map (·.address.symbolToken) =
        [TableId.typeDef.token 2, TableId.typeDef.token 3, TableId.field.token 1] ∧
      ∃ reached, Browses (holding nestedModule) {} (.ofFiles .standard {})
          (onlyPlace nestedModule) reached ∧
        (SearchRequest.everything.nodesIn (onlyPlace nestedModule)).Perm reached := by
  have hagree := @search_agrees_with_browsing (holding nestedModule) {} (.ofFiles .standard {})
    SearchRequest.everything (paths_holding nestedModule) SearchRequest.findsAll_everything
  have hplace : onlyPlace nestedModule ∈ (holding nestedModule).modules := by
    rw [modules_holding]
    exact List.mem_singleton_self _
  rcases hagree.2 _ hplace nestedModule_browsable with ⟨⟨reached, hreached⟩, hperm⟩
  refine ⟨?_, reached, hreached, hperm reached hreached⟩
  rw [SearchRequest.findsAll_everything.nodesIn_eq nestedModule_browsable.indexed
    nestedModule_browsable.wellNested]
  decide +kernel

/-!
The row for what belongs to no type may be declared inside a type. Searching leaves it out even
there, but browsing comes to it from the type around it.
-/

def strayType : TypeDefinition :=
  { token := TableId.typeDef.token 1, namespaceName := "", name := modulePseudoType, flags := 0
    declaringType := some (TableId.typeDef.token 2) }

def aroundStray : TypeDefinition :=
  { token := TableId.typeDef.token 2, namespaceName := "", name := "A", flags := 0
    nestedTypes := [TableId.typeDef.token 1] }

def strayModule : CodeModule :=
  { name := "M", runtimeVersion := "", types := #[strayType, aroundStray] }

theorem mem_strayModule {type : TypeDefinition} (hmem : type ∈ strayModule.types) :
    type = strayType ∨ type = aroundStray := by
  simpa [strayModule] using hmem

theorem strayModule_indexed : strayModule.Indexed where
  types := by
    have hfirst : Numbered .typeDef TypeDefinition.token #[strayType] :=
      (Numbered.empty .typeDef TypeDefinition.token).push rfl
    exact hfirst.push rfl
  methods := Numbered.empty _ _
  fields := Numbered.empty _ _
  properties := Numbered.empty _ _
  events := Numbered.empty _ _
  lists type hmem := by
    rcases mem_strayModule hmem with rfl | rfl
    · constructor <;> (intro token htoken; cases htoken)
    · refine ⟨fun token htoken => ?_, ?_, ?_, ?_, ?_⟩
      · rw [List.mem_singleton.mp htoken]
        exact ⟨1, by decide, by decide, rfl⟩
      all_goals (intro token htoken; cases htoken)

theorem strayModule_wellNested : strayModule.WellNested where
  declared := by decide
  ends type hmem := by
    rcases mem_strayModule hmem with rfl | rfl
    · exact ⟨1, .inside rfl rfl (.top rfl)⟩
    · exact ⟨0, .top rfl⟩
  nested := by decide
  members := by decide
  pseudoType := by decide

def strayPlace : PlacedModule := onlyPlace strayModule

/-- Browsing comes to both types. -/
theorem strayModule_browses :
    Browses (holding strayModule) {} (.ofFiles .standard {}) strayPlace
      [strayPlace.typeNode aroundStray, strayPlace.typeNode strayType] := by
  have hpaths := paths_holding strayModule
  have hplace : strayPlace ∈ (holding strayModule).modules := List.mem_singleton_self _
  have hchildren : strayPlace.children = [strayPlace.namespaceNode ""] := by decide +kernel
  have htop : strayPlace.namespaceChildren "" = [strayPlace.typeNode aroundStray] := by
    decide +kernel
  have haround : strayPlace.typeChildren aroundStray =
      [strayPlace.groupNode .derivedTypesGroup "Derived Types" aroundStray.token,
        strayPlace.typeNode strayType,
        strayPlace.groupNode .analyzerGroup "Used By" aroundStray.token] := by
    decide +kernel
  have hstray : strayPlace.typeChildren strayType =
      [strayPlace.groupNode .derivedTypesGroup "Derived Types" strayType.token,
        strayPlace.groupNode .analyzerGroup "Used By" strayType.token] := by
    decide +kernel
  have hnothing : Unfolds (holding strayModule) {} (.ofFiles .standard {})
      (strayPlace.typeChildren strayType) [] := by
    rw [hstray]
    exact .of_closed (by decide)
  have hinside : Unfolds (holding strayModule) {} (.ofFiles .standard {})
      (strayPlace.typeChildren aroundStray) [strayPlace.typeNode strayType] := by
    have husers : Unfolds (holding strayModule) {} (.ofFiles .standard {})
        [strayPlace.groupNode .analyzerGroup "Used By" aroundStray.token] [] :=
      .of_closed (by decide)
    rw [haround]
    exact .closed rfl (.opened rfl (children_typeNode hpaths hplace rfl) hnothing husers)
  have houter : Unfolds (holding strayModule) {} (.ofFiles .standard {})
      (strayPlace.namespaceChildren "")
      [strayPlace.typeNode aroundStray, strayPlace.typeNode strayType] := by
    rw [htop]
    exact .opened rfl (children_typeNode hpaths hplace rfl) hinside .nil
  refine ⟨strayPlace.children, children_assembly hpaths hplace, ?_⟩
  rw [hchildren]
  exact .opened rfl (children_namespaceNode hpaths hplace "") houter .nil

theorem stray_type_escapes_search :
    (holding strayModule).paths.Nodup ∧ (holding strayModule).modules = [strayPlace] ∧
      strayModule.Indexed ∧ strayModule.RowsFit ∧ strayModule.WellNested ∧
      SearchRequest.parse "//" = .ok SearchRequest.everything ∧
      ∃ reached, Browses (holding strayModule) {} (.ofFiles .standard {}) strayPlace reached ∧
        ¬ (((holding strayModule).search SearchRequest.everything).map SearchMatch.node).Perm
          reached := by
  refine ⟨paths_holding _, rfl, strayModule_indexed, ?_, strayModule_wellNested,
    SearchRequest.parse_everything, _, strayModule_browses, fun hperm => ?_⟩
  · intro table
    cases table <;> decide
  · have hfound := SearchRequest.findsAll_everything.search_perm (holding strayModule)
    have hlength := (hfound.symm.trans hperm).length_eq
    rw [modules_holding, List.flatMap_singleton,
      SearchRequest.findsAll_everything.nodesIn_eq strayModule_indexed strayModule_wellNested]
      at hlength
    revert hlength
    decide +kernel

end Store
end AssemblyBrowser
