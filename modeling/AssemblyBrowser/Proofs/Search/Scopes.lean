import AssemblyBrowser.Proofs.Browsing.Agreement

/-!
# Searches in a namespace

A search that is confined to a namespace finds those matches of the same search
without the scope that stand in the namespace, and in the same order. A match
stands in the namespace of the outermost type around it. The scope is looked at
in three places: before a type and its members are compared with the request,
after a token has been looked up, and after a constant has been compared.
-/

namespace AssemblyBrowser

/-!
## Outermost types
-/

namespace CodeModule

variable {m : CodeModule}

/-- The second type is the outermost one around the first, which may be the first one itself. -/
inductive OutermostAround (m : CodeModule) : TypeDefinition → TypeDefinition → Prop
  | top {type : TypeDefinition} (htop : type.declaringType = none) : OutermostAround m type type
  | inside {type outer top : TypeDefinition} {token : Token}
      (hdeclared : type.declaringType = some token) (houter : m.type? token = some outer)
      (hrest : OutermostAround m outer top) : OutermostAround m type top

theorem OutermostAround.unique {type first second : TypeDefinition}
    (hfirst : m.OutermostAround type first) (hsecond : m.OutermostAround type second) :
    first = second := by
  induction hfirst with
  | top htop =>
      cases hsecond with
      | top => rfl
      | inside hdeclared => simp [htop] at hdeclared
  | inside hdeclared houter _ ih =>
      cases hsecond with
      | top htop => simp [htop] at hdeclared
      | inside hagain hsame hrest =>
          rw [hdeclared] at hagain
          cases hagain
          rw [houter] at hsame
          cases hsame
          exact ih hrest

theorem mem_types_of_type? {token : Token} {type : TypeDefinition}
    (h : m.type? token = some type) : type ∈ m.types :=
  Array.mem_of_getElem? (type?_eq_some.mp h).2.2

/-- However far one goes outwards from a type, the outermost type around it stays the same. -/
theorem OutermostAround.of_mem_chain {type top : TypeDefinition} (h : m.OutermostAround type top)
    (fuel : Nat) {around : TypeDefinition}
    (hmem : around ∈ m.enclosingChain fuel type.declaringType) :
    around ∈ m.types ∧ m.OutermostAround around top := by
  induction h generalizing fuel with
  | top htop =>
      rw [htop] at hmem
      cases fuel with
      | zero => cases hmem
      | succ fuel => cases hmem
  | @inside type outer top token hdeclared houter hrest ih =>
      cases fuel with
      | zero => cases hmem
      | succ fuel =>
          rw [hdeclared, enclosingChain, Option.bind_some, houter] at hmem
          rcases List.mem_cons.mp hmem with rfl | hbehind
          · exact ⟨mem_types_of_type? houter, hrest⟩
          · exact ih fuel hbehind

/-- The type that a definition is, or in which it is declared. -/
def ownerOf? (m : CodeModule) : Entity → Option TypeDefinition
  | .type type => some type
  | member => member.declaringType.bind m.type?

/-- A definition belongs to the namespace of the outermost type around it; what no type declares
belongs to the global namespace. -/
def Belongs (m : CodeModule) (entity : Entity) (namespaceName : String) : Prop :=
  match m.ownerOf? entity with
  | some owner => ∃ top, m.OutermostAround owner top ∧ top.namespaceName = namespaceName
  | none => namespaceName = ""

/-- A module in which it does not matter where the namespace of a definition is looked up. -/
structure NamespacesAgree (m : CodeModule) : Prop where
  indexed : m.Indexed
  rowsFit : m.RowsFit
  /-- The way from a type to the types around it ends. -/
  ends : ∀ type ∈ m.types, ∃ top, m.OutermostAround type top
  /-- A type carries the namespace of the outermost type around it. -/
  inherits : ∀ type ∈ m.types, ∀ top, m.OutermostAround type top →
    type.namespaceName = top.namespaceName
  /-- A member that a type lists is declared in it. -/
  listed : ∀ owner ∈ m.types, ∀ member ∈ m.members, member.token ∈ owner.memberTokens →
    member.declaringType = some owner.token

namespace NamespacesAgree

variable {type : TypeDefinition} {entity : Entity}

theorem type?_token (h : m.NamespacesAgree) (hmem : type ∈ m.types) :
    m.type? type.token = some type :=
  h.indexed.type?_token (h.rowsFit .typeDef) hmem

/-- The search for the outermost type may stop early, since all types on the way to it carry the
same namespace. -/
theorem outermostNamespace_eq (h : m.NamespacesAgree) (hmem : type ∈ m.types) :
    m.outermostNamespace type = type.namespaceName := by
  obtain ⟨top, htop⟩ := h.ends type hmem
  unfold outermostNamespace
  cases hlast : (m.enclosingChain maxNesting type.declaringType).getLast? with
  | none => rfl
  | some around =>
      obtain ⟨haround, hsame⟩ := htop.of_mem_chain maxNesting (List.mem_of_getLast? hlast)
      rw [Option.getD_some, h.inherits around haround top hsame, h.inherits type hmem top htop]

theorem mem_types_of_ownerOf? (hmem : entity ∈ m.entities)
    (howner : m.ownerOf? entity = some type) :
    type ∈ m.types := by
  cases entity with
  | type inner =>
      cases howner
      simpa [entities] using hmem
  | _ => exact mem_types_of_type? howner

theorem belongs_iff (h : m.NamespacesAgree) (hmem : entity ∈ m.entities) {namespaceName : String} :
    m.Belongs entity namespaceName ↔ SearchRequest.namespaceOf m entity = namespaceName := by
  have hnamespace : SearchRequest.namespaceOf m entity =
      ((m.ownerOf? entity).map m.outermostNamespace).getD "" := by
    cases entity <;> rfl
  rw [hnamespace, Belongs]
  cases howner : m.ownerOf? entity with
  | none => exact eq_comm
  | some owner =>
      have hrow := mem_types_of_ownerOf? hmem howner
      obtain ⟨top, htop⟩ := h.ends owner hrow
      rw [Option.map_some, Option.getD_some, h.outermostNamespace_eq hrow,
        h.inherits owner hrow top htop]
      constructor
      · rintro ⟨other, hother, hname⟩
        rw [htop.unique hother, hname]
      · exact fun hname => ⟨top, htop, hname⟩

/-- What is found under a type belongs to the namespace of the type. -/
theorem namespaceOf_listed (h : m.NamespacesAgree) (hmem : type ∈ m.types) {token : Token}
    (hlisted : token ∈ type.memberTokens) (hfound : m.entity? token = some entity) :
    entity ∈ m.entities ∧ SearchRequest.namespaceOf m entity = m.outermostNamespace type := by
  obtain ⟨member, hmember, hsame⟩ := h.indexed.exists_member h.rowsFit hmem hlisted
  rw [hfound] at hsame
  cases hsame
  obtain ⟨hentity, rfl⟩ := (entity?_eq_some_iff h.indexed h.rowsFit).mp hfound
  have hdeclared := h.listed type hmem entity hmember hlisted
  refine ⟨hentity, ?_⟩
  cases entity with
  | type inner => exact absurd hmember (not_mem_members_type inner)
  | _ => simp [SearchRequest.namespaceOf, hdeclared, h.type?_token hmem]

end NamespacesAgree
end CodeModule

/-!
## Nodes in a namespace
-/

/-- Whether a namespace goes by a text, as its name or as its label. -/
def GoesBy (namespaceName text : String) : Prop :=
  Path.sameIgnoringCase namespaceName text = true ∨
    Path.sameIgnoringCase (namespaceLabel namespaceName) text = true

namespace Store

variable {store : Store} {place : PlacedModule} {entity : Entity}

/-- A node is one of a definition in a namespace that goes by the text. -/
def StandsIn (store : Store) (node : Node) (text : String) : Prop :=
  ∃ place ∈ store.modules, ∃ entity ∈ place.code.entities, place.entityNode entity = node ∧
    ∃ namespaceName, place.code.Belongs entity namespaceName ∧ GoesBy namespaceName text

end Store

namespace SearchRequest

/-- The request with a namespace as its scope, or with none. -/
def within (request : SearchRequest) (scope : Option String) : SearchRequest :=
  { request with inNamespace := scope }

variable {request : SearchRequest} {text : String}

theorem mode_within (scope : Option String) : (request.within scope).mode = request.mode := rfl

theorem coversNamespace_within (namespaceName : String) :
    (request.within (some text)).coversNamespace namespaceName = true ↔
      GoesBy namespaceName text := by
  simp [coversNamespace, within, GoesBy]

end SearchRequest

namespace Store

open scoped Classical in
/-- Whether a match stands in a namespace that goes by the text. -/
noncomputable def keepsIn (store : Store) (text : String) (found : SearchMatch) : Bool :=
  decide (store.StandsIn found.node text)

variable {store : Store} {place : PlacedModule} {entity : Entity} {text : String}

theorem address_of_entityNode_eq {other : PlacedModule} {same : Entity}
    (h : other.entityNode same = place.entityNode entity) :
    other.archivePath = place.archivePath ∧ other.containerPath = place.containerPath ∧
      same.token = entity.token := by
  have haddress := congrArg Node.address h
  cases same <;> cases entity <;>
    exact ⟨congrArg NodeAddress.archivePath haddress, congrArg NodeAddress.containerPath haddress,
      congrArg NodeAddress.symbolToken haddress⟩

/-- The node of a definition stands in the namespace in which a search finds the definition. -/
theorem standsIn_entityNode (hpaths : store.paths.Nodup) (hplace : place ∈ store.modules)
    (h : place.code.NamespacesAgree) (hentity : entity ∈ place.code.entities) :
    store.StandsIn (place.entityNode entity) text ↔
      GoesBy (SearchRequest.namespaceOf place.code entity) text := by
  constructor
  · rintro ⟨other, hother, same, hsame, hnode, namespaceName, hbelongs, hgoes⟩
    obtain ⟨harchive, hcontainer, htoken⟩ := address_of_entityNode_eq hnode
    cases eq_of_paths hpaths hother hplace harchive hcontainer
    cases CodeModule.eq_of_token h.indexed h.rowsFit hsame hentity htoken
    rwa [(h.belongs_iff hentity).mp hbelongs]
  · exact fun hgoes => ⟨place, hplace, entity, hentity, rfl, _,
      (h.belongs_iff hentity).mpr rfl, hgoes⟩

/-- A match of a definition is kept if the scope covers the namespace in which a search finds the
definition. -/
theorem keepsIn_entityNode (hpaths : store.paths.Nodup) (hplace : place ∈ store.modules)
    (h : place.code.NamespacesAgree) (request : SearchRequest)
    (hentity : entity ∈ place.code.entities) (fitness : Fitness) :
    store.keepsIn text { node := place.entityNode entity, fitness } =
      (request.within (some text)).coversNamespace
        (SearchRequest.namespaceOf place.code entity) := by
  rw [Bool.eq_iff_iff, SearchRequest.coversNamespace_within]
  simp only [keepsIn, decide_eq_true_eq]
  exact standsIn_entityNode hpaths hplace h hentity

end Store

/-!
## Searches of modules
-/

namespace SearchRequest

variable {store : Store} {place : PlacedModule} {text : String}

/-- If what each item gives is kept as a whole or not at all, then it is as good to leave out the
items beforehand. -/
theorem filter_flatMap_eq {α β : Type} {items : List α} {gives : α → List β} {keep : β → Bool}
    {covers : α → Bool} (h : ∀ item ∈ items, ∀ given ∈ gives item, keep given = covers item) :
    (items.flatMap gives).filter keep = (items.filter covers).flatMap gives := by
  induction items with
  | nil => rfl
  | cons item items ih =>
      have hitem := h item List.mem_cons_self
      rw [List.flatMap_cons, List.filter_append, List.filter_cons,
        ih fun other hother => h other (List.mem_cons_of_mem item hother)]
      cases hcovers : covers item with
      | false =>
          have hnone : (gives item).filter keep = [] :=
            List.filter_eq_nil_iff.mpr fun given hgiven => by simp [hitem given hgiven, hcovers]
          rw [hnone]
          rfl
      | true =>
          have hall : (gives item).filter keep = gives item :=
            List.filter_eq_self.mpr fun given hgiven => by rw [hitem given hgiven, hcovers]
          rw [hall]
          rfl

section Scans

variable (hpaths : store.paths.Nodup) (hplace : place ∈ store.modules)
  (h : place.code.NamespacesAgree) (request : SearchRequest)
include hpaths hplace h

/-- What is found under a type is kept or left out with the type. -/
theorem keepsIn_under_type {type : TypeDefinition} (hmem : type ∈ place.code.types)
    {found : SearchMatch}
    (hfound : found ∈ request.typeMatch place type ++ request.memberMatches place type) :
    store.keepsIn text found =
      (request.within (some text)).coversNamespace (place.code.outermostNamespace type) := by
  rcases List.mem_append.mp hfound with htype | hmember
  · have hsame := (List.mem_ite_nil_right.mp htype).2
    have hentity : Entity.type type ∈ place.code.entities := by
      simpa [CodeModule.entities] using hmem
    rw [List.mem_singleton.mp hsame]
    exact Store.keepsIn_entityNode hpaths hplace h request hentity _
  · rcases List.mem_flatMap.mp hmember with ⟨entity, hentity, hmatch⟩
    rcases List.mem_filterMap.mp hentity with ⟨token, hlisted, hlookup⟩
    obtain ⟨hknown, hnamespace⟩ := h.namespaceOf_listed hmem hlisted hlookup
    have hsame := (List.mem_ite_nil_right.mp hmatch).2
    rw [List.mem_singleton.mp hsame, ← hnamespace]
    exact Store.keepsIn_entityNode hpaths hplace h request hknown _

theorem definitionMatches_within :
    (request.within (some text)).definitionMatches place =
      ((request.within none).definitionMatches place).filter (store.keepsIn text) := by
  have hcovers : (request.within (some text)).coversType place.code = fun type =>
      (request.within none).coversType place.code type &&
        (request.within (some text)).coversNamespace (place.code.outermostNamespace type) := by
    funext type
    simp [coversType, coversNamespace, within]
  have hgives : ∀ type ∈
      place.code.types.toList.filter ((request.within none).coversType place.code),
      ∀ found ∈ request.typeMatch place type ++ request.memberMatches place type,
        store.keepsIn text found =
          (request.within (some text)).coversNamespace (place.code.outermostNamespace type) :=
    fun type htype found hfound => keepsIn_under_type hpaths hplace h request
      (Array.mem_toList_iff.mp (List.mem_of_mem_filter htype)) hfound
  calc (request.within (some text)).definitionMatches place
    _ = (place.code.types.toList.filter
            ((request.within (some text)).coversType place.code)).flatMap fun type =>
          request.typeMatch place type ++ request.memberMatches place type := rfl
    _ = _ := by
      rw [hcovers, ← List.filter_filter, List.filter_comm]
      exact (filter_flatMap_eq hgives).symm

theorem tokenMatches_within :
    (request.within (some text)).tokenMatches place =
      ((request.within none).tokenMatches place).filter (store.keepsIn text) := by
  unfold tokenMatches
  rw [List.filter_flatMap]
  refine List.flatMap_congr fun entity hentity => ?_
  obtain ⟨token, -, hlookup⟩ := Option.bind_eq_some_iff.mp (Option.mem_toList.mp hentity)
  have hknown := ((CodeModule.entity?_eq_some_iff h.indexed h.rowsFit).mp hlookup).1
  rw [filter_match, Store.keepsIn_entityNode hpaths hplace h request hknown]
  rfl

theorem literalMatches_within :
    (request.within (some text)).literalMatches place =
      ((request.within none).literalMatches place).filter (store.keepsIn text) := by
  have hconstant : (request.within (some text)).acceptsConstant =
      (request.within none).acceptsConstant := rfl
  unfold literalMatches
  rw [List.filter_map, List.filter_filter, hconstant]
  refine congrArg _ (List.filter_congr fun field hfield => ?_)
  have hknown : Entity.field field ∈ place.code.entities := by
    simpa [CodeModule.entities, CodeModule.members] using hfield
  have hnamespace : namespaceOf place.code (.field field) =
      ((place.code.type? field.declaringType).map place.code.outermostNamespace).getD "" := rfl
  rw [Function.comp_apply, Store.keepsIn_entityNode hpaths hplace h request hknown, hnamespace]
  cases howner : place.code.type? field.declaringType with
  | none => simp
  | some owner => simp [Bool.and_comm, coversNamespace, within]

/-- In each of the modes a module is searched in one of three ways. -/
theorem moduleMatches_within (hmode : request.mode.searchesDefinitions = true) :
    (request.within (some text)).moduleMatches place =
      ((request.within none).moduleMatches place).filter (store.keepsIn text) := by
  have hways : (request.mode.searchesByName = true ∨ request.mode = .literal) ∨
      request.mode = .token := by
    simpa [SearchMode.searchesDefinitions] using hmode
  rcases hways with (hname | hliteral) | htoken
  · have hscan := fun scope => @moduleMatches_of_searchesByName (request.within scope) hname place
    rw [hscan, hscan]
    exact definitionMatches_within hpaths hplace h request
  · simp only [moduleMatches, mode_within, hliteral]
    exact literalMatches_within hpaths hplace h request
  · simp only [moduleMatches, mode_within, htoken]
    exact tokenMatches_within hpaths hplace h request

end Scans

end SearchRequest

namespace Store

/-- In the modes that search definitions, a namespace as the scope keeps those matches that stand in
the namespace, and keeps them in order. -/
theorem namespace_scope_filters {store : Store} {request : SearchRequest}
    (hpaths : store.paths.Nodup) (hmodules : ∀ place ∈ store.modules, place.code.NamespacesAgree)
    (hmode : request.mode.searchesDefinitions = true) (text : String) :
    store.search (request.within (some text)) =
      (store.search (request.within none)).filter (store.keepsIn text) :=
  SearchRequest.search_eq_filter hmode hmode rfl rfl fun place hplace =>
    SearchRequest.moduleMatches_within hpaths hplace (hmodules place hplace) request hmode

theorem nestedModule_namespacesAgree : nestedModule.NamespacesAgree := by
  have hout : ∀ type ∈ nestedModule.types, ∃ top, nestedModule.OutermostAround type top ∧
      type.namespaceName = top.namespaceName := by
    intro type hmem
    rcases Array.mem_iff_getElem.mp hmem with ⟨index, hindex, rfl⟩
    match index, hindex with
    | 0, _ => exact ⟨_, .top rfl, rfl⟩
    | 1, _ => exact ⟨_, .top rfl, rfl⟩
    | 2, _ => exact ⟨_, .inside rfl rfl (.top rfl), rfl⟩
  exact
    { indexed := nestedModule_browsable.indexed
      rowsFit := fun table => by cases table <;> decide
      ends := fun type hmem => (hout type hmem).imp fun _ h => h.1
      inherits := fun type hmem top htop => by
        obtain ⟨other, hother, hname⟩ := hout type hmem
        rw [hname, hother.unique htop]
      listed := by decide }

theorem namespace_scope_filters_nested :
    (holding nestedModule).search (SearchRequest.everything.within (some "n")) =
        ((holding nestedModule).search (SearchRequest.everything.within none)).filter
          ((holding nestedModule).keepsIn "n") ∧
      ∀ entity ∈ nestedModule.entities, entity.token ≠ TableId.typeDef.token 1 →
        (holding nestedModule).StandsIn ((onlyPlace nestedModule).entityNode entity) "n" := by
  have hplace : onlyPlace nestedModule ∈ (holding nestedModule).modules :=
    List.mem_singleton_self _
  refine ⟨namespace_scope_filters (paths_holding nestedModule) ?_ rfl "n", ?_⟩
  · intro place hmem
    rw [List.mem_singleton.mp hmem]
    exact nestedModule_namespacesAgree
  · intro entity hentity htoken
    rw [standsIn_entityNode (paths_holding nestedModule) hplace nestedModule_namespacesAgree
      hentity]
    revert entity
    unfold GoesBy
    decide +kernel

/-!
Two types may list one method, which is declared in one of them. It is found under the other one
too, in whose namespace it does not stand.
-/

def sharedMethod : MethodDefinition :=
  { token := TableId.methodDef.token 1, name := "run", flags := 0
    declaringType := TableId.typeDef.token 3, returnType := .void, parameters := [] }

/-- The type that lists the method without declaring it. -/
def sharingType : TypeDefinition :=
  { token := TableId.typeDef.token 1, namespaceName := "N", name := "A", flags := 0
    methods := [sharedMethod.token] }

def sharingModule : CodeModule :=
  { name := "M", runtimeVersion := "", methods := #[sharedMethod]
    types := #[sharingType,
      { token := TableId.typeDef.token 2, namespaceName := "", name := "B", flags := 0 },
      { token := TableId.typeDef.token 3, namespaceName := "P", name := "C", flags := 0
        methods := [sharedMethod.token] }] }

/-- The request for methods whose names contain a text. -/
def methodsWith (text : String) : SearchRequest :=
  { mode := .method, keywords := [{ kind := .contains, text }] }

/-- The method is declared in a type of another namespace. -/
theorem not_standsIn_sharedMethod : ¬ (holding sharingModule).StandsIn
    ((onlyPlace sharingModule).entityNode (.method sharedMethod)) "N" := by
  rintro ⟨place, hplace, entity, hentity, hnode, namespaceName, hbelongs, hgoes⟩
  cases List.mem_singleton.mp hplace
  have honly : (sharingModule.entities.filter fun other => other.token == sharedMethod.token) =
      [.method sharedMethod] := by rfl
  have hmem : entity ∈ sharingModule.entities.filter fun other =>
      other.token == sharedMethod.token :=
    List.mem_filter.mpr ⟨hentity, beq_iff_eq.mpr (address_of_entityNode_eq hnode).2.2⟩
  rw [honly] at hmem
  cases List.mem_singleton.mp hmem
  obtain ⟨top, htop, rfl⟩ := hbelongs
  cases htop with
  | top => exact absurd hgoes (by unfold GoesBy; decide +kernel)
  | inside hdeclared => cases hdeclared

/-- It is found under the type that lists it. -/
theorem mem_search_sharedMethod :
    { node := (onlyPlace sharingModule).entityNode (.method sharedMethod)
      fitness := .ofName "run" } ∈
        (holding sharingModule).search ((methodsWith "run").within (some "N")) := by
  have hplain : ((methodsWith "run").within (some "N")).matchesFullNames = false := by
    simp [SearchRequest.matchesFullNames, methodsWith, SearchRequest.within,
      String.contains_char_eq]
  have homits : ((methodsWith "run").within (some "N")).omitsGenerics = true := by
    simp [SearchRequest.omitsGenerics, SearchRequest.texts, methodsWith, SearchRequest.within,
      String.contains_char_eq]
    decide
  have haccepts : ((methodsWith "run").within (some "N")).accepts "run" = true := by
    rw [SearchRequest.accepts, homits]
    decide +kernel
  have hmember : { node := (onlyPlace sharingModule).entityNode (.method sharedMethod)
                   fitness := .ofName "run" } ∈
      ((methodsWith "run").within (some "N")).memberMatches (onlyPlace sharingModule)
        sharingType := by
    refine List.mem_flatMap.mpr ⟨.method sharedMethod, List.mem_singleton_self _, ?_⟩
    unfold SearchRequest.memberMatch
    rw [hplain, if_pos]
    · exact List.mem_singleton_self _
    · exact haccepts
  have hcovers : ((methodsWith "run").within (some "N")).coversType sharingModule sharingType =
      true := by
    decide +kernel
  have hdefinition : _ ∈ ((methodsWith "run").within (some "N")).definitionMatches
      (onlyPlace sharingModule) := List.mem_flatMap.mpr ⟨sharingType,
    List.mem_filter.mpr ⟨List.mem_cons_self, hcovers⟩, List.mem_append_right _ hmember⟩
  refine List.mem_mergeSort.mpr (List.mem_flatMap.mpr ⟨_, List.mem_singleton_self _, ?_⟩)
  rw [SearchRequest.matchesIn_of_searchesDefinitions rfl]
  exact List.mem_flatMap.mpr ⟨_, List.mem_singleton_self _, hdefinition⟩

theorem shared_method_found_in_both_namespaces :
    (∀ type ∈ sharingModule.types, type.declaringType = none) ∧
      SearchRequest.parse "md:run innamespace:N" =
        .ok ((methodsWith "run").within (some "N")) ∧
      (holding sharingModule).search ((methodsWith "run").within (some "N")) ≠
        ((holding sharingModule).search ((methodsWith "run").within none)).filter
          ((holding sharingModule).keepsIn "N") := by
  refine ⟨by decide, rfl, fun heq => ?_⟩
  have hmatch := mem_search_sharedMethod
  rw [heq] at hmatch
  have hkept := (List.mem_filter.mp hmatch).2
  simp only [keepsIn, decide_eq_true_eq] at hkept
  exact not_standsIn_sharedMethod hkept

end Store
end AssemblyBrowser
