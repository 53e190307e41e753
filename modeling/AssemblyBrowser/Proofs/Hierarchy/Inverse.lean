import AssemblyBrowser.Proofs.Hierarchy.Supertypes
import AssemblyBrowser.Proofs.Lookup.Exactness

/-!
# Base types and derived types

Base types are looked up name by name, and derived types are compared by their
names, module by module. Still the two views are inverse to each other: a type is
among the base types of another one exactly if unfolding the derived types of the
first one comes to the other.
-/

namespace AssemblyBrowser

theorem exists_of_forall₂ {α β : Type} {R : α → β → Prop} {items : List α} {others : List β}
    (h : List.Forall₂ R items others) : ∀ x ∈ items, ∃ y ∈ others, R x y := by
  induction h with
  | nil => exact fun x hx => by cases hx
  | cons hfirst _ ih =>
      refine List.forall_mem_cons.mpr ⟨⟨_, List.mem_cons_self, hfirst⟩, fun x hx => ?_⟩
      rcases ih x hx with ⟨y, hy, hxy⟩
      exact ⟨y, List.mem_cons_of_mem _ hy, hxy⟩

namespace Store

variable {store : Store} {resolver : Resolver} {source : ArchiveSource}

/-- Nothing is above the root of the class hierarchy, and only interfaces are above interfaces. -/
structure StrictHierarchy (store : Store) : Prop extends store.PlainHierarchy where
  root : ∀ type, store.Defines type → type.fullName = rootName →
    type.definition.directSupertypes = []
  interfaces : ∀ type, store.Defines type → type.isInterface = true →
    ∀ found, store.Defines found → found.fullName ∈ type.definition.directSupertypes →
      found.isInterface = true

/-- Every type is found by its token in its module. -/
def TokensLead (store : Store) : Prop :=
  ∀ type, store.Defines type →
    type.place.code.type? type.definition.token = some type.definition

/-- So it is in modules that are loaded or built, if tokens have room for their rows. -/
theorem tokensLead_of_produced
    (h : ∀ place ∈ store.modules, CodeModule.Produced place.code ∧
      place.code.types.size < 0x1000000) : store.TokensLead := by
  intro type htype
  rcases h type.place htype.1 with ⟨hproduced, hfits⟩
  exact (hproduced.indexed.types.byRow_eq_some_iff hfits).mpr ⟨htype.2, rfl⟩

/-- Whether a plain hierarchy in which no full name is defined twice is strict as well. -/
def isStrict (store : Store) : Bool :=
  store.isPlain && store.definitions.all fun type =>
    (type.fullName != rootName || type.definition.directSupertypes.isEmpty) &&
      (!type.isInterface || store.definitions.all fun found =>
        !type.definition.directSupertypes.contains found.fullName || found.isInterface)

theorem strictHierarchy_of_isStrict (h : store.isStrict = true) : store.StrictHierarchy := by
  unfold isStrict at h
  rw [Bool.and_eq_true, List.all_eq_true] at h
  have hchecks (type : PlacedType) (htype : store.Defines type) :=
    h.2 type (mem_definitions.mpr htype)
  simp only [Bool.and_eq_true, Bool.or_eq_true, List.all_eq_true, bne_iff_ne,
    Bool.not_eq_true', List.isEmpty_iff] at hchecks
  refine ⟨plainHierarchy_of_isPlain h.1, fun type htype hroot => ?_,
    fun type htype honly found hfound hnamed => ?_⟩
  · exact (hchecks type htype).1.resolve_left (fun hne => hne hroot)
  · have hall := (hchecks type htype).2.resolve_left (by simp [honly])
    exact (hall found (mem_definitions.mpr hfound)).resolve_left (by simp [hnamed])

/-- A group of that kind under a type's node shows another node. -/
def GroupShows (store : Store) (resolver : Resolver) (source : ArchiveSource) (kind : NodeKind)
    (node shown : Node) : Prop :=
  ∃ nodes, store.children resolver source
      (.group node.address.archivePath node.address.containerPath kind
        node.address.symbolToken) = (store, .ok nodes) ∧
    shown ∈ nodes

/-!
## Addresses of groups
-/

theorem subjectOf_group (hstore : store.WellFormed) (htokens : store.TokensLead)
    {type : PlacedType} (htype : store.Defines type) (kind : NodeKind) :
    store.subjectOf source (.group type.node.address.archivePath
      type.node.address.containerPath kind type.node.address.symbolToken) = .ok type := by
  unfold subjectOf
  rw [placeOf_eq hstore.paths_nodup htype.1 rfl rfl, Outcome.ok_bind]
  show typeOf type.place type.definition.token = .ok type
  unfold typeOf
  rw [htokens type htype]

theorem eq_of_node_eq (hstore : store.WellFormed) (htokens : store.TokensLead)
    {type other : PlacedType} (htype : store.Defines type) (hother : store.Defines other)
    (h : type.node = other.node) : type = other := by
  have hsubject : store.subjectOf (.ofFiles .standard {}) _ = _ :=
    subjectOf_group hstore htokens htype .classType
  rw [h, subjectOf_group hstore htokens hother] at hsubject
  exact (Except.ok.inj hsubject).symm

/-!
## Derived types
-/

/-- One type names another one as its base or as an interface. -/
structure DerivesFrom (store : Store) (base type : PlacedType) : Prop where
  definesBase : store.Defines base
  definesType : store.Defines type
  named : base.fullName ∈ type.definition.directSupertypes

theorem mem_derivedTypes {fullName : String} {node : Node} :
    node ∈ store.derivedTypes fullName ↔
      ∃ type, store.Defines type ∧ fullName ∈ type.definition.directSupertypes ∧
        type.node = node := by
  unfold derivedTypes
  rw [(Node.sortByName_perm _).mem_iff, List.mem_flatMap]
  constructor
  · rintro ⟨place, hplace, hnode⟩
    rcases List.mem_map.mp hnode with ⟨definition, hdefinition, rfl⟩
    rcases List.mem_filter.mp hdefinition with ⟨hmem, hnamed⟩
    exact ⟨⟨place, definition⟩, ⟨hplace, Array.mem_toList_iff.mp hmem⟩,
      List.contains_iff_mem.mp hnamed, rfl⟩
  · rintro ⟨type, hdefines, hnamed, rfl⟩
    refine ⟨type.place, hdefines.1, List.mem_map.mpr ⟨type.definition, ?_, rfl⟩⟩
    exact List.mem_filter.mpr ⟨Array.mem_toList_iff.mpr hdefines.2,
      List.contains_iff_mem.mpr hnamed⟩

theorem groupShows_derived_iff (hstore : store.WellFormed) (htokens : store.TokensLead)
    {base : PlacedType} (hbase : store.Defines base) {node : Node} :
    store.GroupShows resolver source .derivedTypesGroup base.node node ↔
      ∃ type, store.DerivesFrom base type ∧ type.node = node := by
  have hlisting : store.listing source (.group base.node.address.archivePath
      base.node.address.containerPath .derivedTypesGroup base.node.address.symbolToken) =
        .ok (store.derivedTypes base.fullName) := by
    show (store.subjectOf source (.group _ _ .derivedTypesGroup _) >>= fun subject =>
      pure (store.derivedTypes subject.fullName)) = _
    rw [subjectOf_group hstore htokens hbase]
    rfl
  unfold GroupShows
  rw [children_of_listing (by simp [NodeAddress.group]) hlisting]
  constructor
  · rintro ⟨nodes, hnodes, hshown⟩
    cases hnodes
    rcases mem_derivedTypes.mp hshown with ⟨type, htype, hnamed, hnode⟩
    exact ⟨type, ⟨hbase, htype, hnamed⟩, hnode⟩
  · rintro ⟨type, hderives, hnode⟩
    exact ⟨_, rfl, mem_derivedTypes.mpr ⟨type, hderives.definesType, hderives.named, hnode⟩⟩

theorem unfolds_derived_iff (hstore : store.WellFormed) (htokens : store.TokensLead)
    {base type : PlacedType} (hbase : store.Defines base) (htype : store.Defines type) :
    Relation.TransGen (store.GroupShows resolver source .derivedTypesGroup) base.node type.node ↔
      Relation.TransGen store.DerivesFrom base type := by
  constructor
  · intro h
    have hchain {node : Node} (hpath : Relation.TransGen
        (store.GroupShows resolver source .derivedTypesGroup) base.node node) :
        ∃ last, Relation.TransGen store.DerivesFrom base last ∧ store.Defines last ∧
          last.node = node := by
      induction hpath with
      | single hshows =>
          rcases (groupShows_derived_iff hstore htokens hbase).mp hshows with ⟨next, hnext, rfl⟩
          exact ⟨next, .single hnext, hnext.definesType, rfl⟩
      | tail _ hshows ih =>
          rcases ih with ⟨last, hlast, hdefines, rfl⟩
          rcases (groupShows_derived_iff hstore htokens hdefines).mp hshows with ⟨next, hnext, rfl⟩
          exact ⟨next, hlast.tail hnext, hnext.definesType, rfl⟩
    rcases hchain h with ⟨last, hlast, hdefines, hnode⟩
    rw [← eq_of_node_eq hstore htokens hdefines htype hnode]
    exact hlast
  · intro h
    clear htype
    induction h with
    | single hderives =>
        exact .single ((groupShows_derived_iff hstore htokens hbase).mpr ⟨_, hderives, rfl⟩)
    | tail _ hderives ih =>
        exact ih.tail ((groupShows_derived_iff hstore htokens hderives.definesBase).mpr
          ⟨_, hderives, rfl⟩)

/-!
## Base types
-/

theorem Shows.eq_fullName (hstore : store.WellFormed) (htokens : store.TokensLead)
    {type : PlacedType} (htype : store.Defines type) {fullName : String}
    (h : store.Shows fullName type.node) : fullName = type.fullName := by
  generalize hnode : type.node = node at h
  cases h with
  | resolved found hfound hname =>
      rw [← eq_of_node_eq hstore htokens htype hfound hnode] at hname
      exact hname.symm
  | unresolved =>
      exact absurd hnode (PlacedType.node_ne_unresolvedNode _ _ _)

theorem groupShows_base_iff (hclosed : resolver.autoLoad = false) (hstore : store.WellFormed)
    (hplain : store.PlainHierarchy) (htokens : store.TokensLead) {base type : PlacedType}
    (hbase : store.Defines base) (htype : store.Defines type) :
    store.GroupShows resolver source .baseTypesGroup type.node base.node ↔
      store.Lists type base.fullName := by
  rcases children_baseTypes hclosed hstore hplain rfl
    (subjectOf_group hstore htokens htype .baseTypesGroup) with
    ⟨meetings, names, _, _, hlists, hshows, hchildren⟩
  unfold GroupShows
  rw [hchildren, ← hlists]
  constructor
  · rintro ⟨nodes, hnodes, hshown⟩
    cases hnodes
    have hmem := (Node.sortByName_perm _).mem_iff.mp hshown
    rcases exists_of_forall₂ hshows.flip _ hmem with ⟨fullName, hname, hshows⟩
    rw [← hshows.eq_fullName hstore htokens hbase]
    exact hname
  · intro hname
    refine ⟨_, rfl, (Node.sortByName_perm _).mem_iff.mpr ?_⟩
    rcases exists_of_forall₂ hshows _ hname with ⟨node, hnode, hshows⟩
    cases hshows with
    | resolved found hfound hfullName =>
        rcases ((hlists _).mp hname).reached.named htype with ⟨other, hother, hnamed⟩
        rw [← hplain.unique other hother _ hnamed found base hfound hbase hfullName rfl]
        exact hnode
    | unresolved _ _ _ _ _ _ _ hnone => exact absurd rfl (hnone base hbase)

/-- Above an interface there are only interfaces. -/
theorem Reaches.isInterface (hstrict : store.StrictHierarchy) {type : PlacedType}
    (htype : store.Defines type) (honly : type.isInterface = true) {fullName : String}
    (h : store.Reaches type fullName) {found : PlacedType} (hfound : store.Defines found)
    (hname : found.fullName = fullName) : found.isInterface = true := by
  subst hname
  rcases h with ⟨first, hfirst, hpath⟩
  cases hpath with
  | refl => exact hstrict.interfaces type htype honly found hfound hfirst
  | tail _ hlast =>
      rcases hlast with ⟨_, middle, hmiddle, _, hkind, hnext⟩
      exact hstrict.interfaces middle hmiddle (hkind honly) found hfound hnext

/-- The graph of names leads to a type exactly if types that derive from each other do. -/
theorem reaches_iff (hstrict : store.StrictHierarchy) {base type : PlacedType}
    (hbase : store.Defines base) (htype : store.Defines type) :
    store.Reaches type base.fullName ↔ Relation.TransGen store.DerivesFrom base type := by
  constructor
  · rintro ⟨first, hfirst, hpath⟩
    generalize hname : base.fullName = fullName at hpath
    induction hpath generalizing base with
    | refl => exact .single ⟨hbase, htype, hname ▸ hfirst⟩
    | tail _ hlast ih =>
        rcases hlast with ⟨_, found, hfound, hfoundName, _, hnext⟩
        exact .head ⟨hbase, hfound, hname ▸ hnext⟩ (ih hfound hfoundName)
  · intro h
    induction h using Relation.TransGen.head_induction_on with
    | single hderives => exact ⟨_, hderives.named, .refl⟩
    | @head below middle hderives _ ih =>
        have hreached := ih hderives.definesType
        have hroot : middle.fullName ≠ rootName := by
          intro hroot
          have hnothing := hstrict.root middle hderives.definesType hroot
          exact List.not_mem_nil (hnothing ▸ hderives.named)
        rcases hreached with ⟨first, hfirst, hpath⟩
        refine ⟨first, hfirst, hpath.tail
          ⟨hroot, middle, hderives.definesType, rfl, fun honly => ?_, hderives.named⟩⟩
        exact Reaches.isInterface hstrict htype honly ⟨first, hfirst, hpath⟩
          hderives.definesType rfl

theorem lists_iff (hstrict : store.StrictHierarchy) {base type : PlacedType}
    (hbase : store.Defines base) (htype : store.Defines type) (hne : type ≠ base) :
    store.Lists type base.fullName ↔ Relation.TransGen store.DerivesFrom base type := by
  rw [← reaches_iff hstrict hbase htype]
  constructor
  · exact fun hlists => hlists.reached
  · intro hreached
    refine ⟨fun hname => hne ?_, hreached, fun honly found hfound hname =>
      hreached.isInterface hstrict htype honly hfound hname⟩
    rcases hreached.named htype with ⟨other, hother, hnamed⟩
    exact hstrict.unique other hother _ hnamed type base htype hbase hname.symm rfl

end Store

namespace Worker

/-- After any commands, without leave to open archives, and where names are plain and only
interfaces are above interfaces: one type is among the base types of another one if and only if
unfolding derived types leads from the first one to the other, in one step or more. -/
theorem base_types_inverse_to_derived_types (sessionFile : Option String) (before : FileSystem)
    (events : List WorkerEvent) (resolver : Resolver) (source : ArchiveSource)
    (hclosed : resolver.autoLoad = false)
    (hstrict : ((start sessionFile before).run events).store.StrictHierarchy)
    (htokens : ((start sessionFile before).run events).store.TokensLead)
    (type base : PlacedType) (htype : ((start sessionFile before).run events).store.Defines type)
    (hbase : ((start sessionFile before).run events).store.Defines base) (hne : type ≠ base) :
    let store := ((start sessionFile before).run events).store
    store.GroupShows resolver source .baseTypesGroup type.node base.node ↔
      Relation.TransGen (store.GroupShows resolver source .derivedTypesGroup) base.node
        type.node := by
  have hstore := @wellFormed_run (start sessionFile before) events Store.empty_wellFormed
  exact (Store.groupShows_base_iff hclosed hstore hstrict.toPlainHierarchy htokens hbase
    htype).trans ((Store.lists_iff hstrict hbase htype hne).trans
      (Store.unfolds_derived_iff hstore htokens hbase htype).symm)

theorem modules_afterOpening (code : CodeModule) : (afterOpening code).modules =
    [{ archivePath := "/Module.dll", containerPath := none, code }] := by
  have hextension : Path.hasExtension "/Module.dll" ArchiveContents.moduleExtensions = true := by
    decide +kernel
  have hload : (openModule code).source.load "/Module.dll" = .ok (.codeModule code) := by
    unfold ArchiveSource.load ArchiveContents.load
    rw [if_pos hextension]
    rfl
  have hstore : afterOpening code = (Store.add {} (openModule code).source "/Module.dll" none).1 :=
    store_publish _ _ _
  rw [hstore]
  simp only [Store.add, List.findFinIdx?_nil]
  rw [show (openModule code).source.normalize "/Module.dll" = "/Module.dll" from rfl, hload]
  rfl

/-- Two classes, each built with the other one as its base. -/
def circularSteps : List BuildStep :=
  [.type "Loop" "First" .classType 0, .type "Loop" "Second" .classType 0,
    .base (TableId.typeDef.token 2) (some (.ofName "Loop" "Second")),
    .base (TableId.typeDef.token 3) (some (.ofName "Loop" "First"))]

def circularModule : CodeModule := (CodeModule.ofSteps "Loop.dll" circularSteps).1

theorem base_types_inverse_to_derived_types_circular :
    ∃ type base,
      let store := afterOpening circularModule
      let source := (openModule circularModule).source
      (store.StrictHierarchy ∧ store.TokensLead ∧ store.Defines type ∧ store.Defines base ∧
        type ≠ base) ∧
      store.GroupShows { autoLoad := false } source .baseTypesGroup type.node base.node ∧
      Relation.TransGen (store.GroupShows { autoLoad := false } source .derivedTypesGroup) base.node
        type.node := by
  have hstrict : (afterOpening circularModule).StrictHierarchy :=
    Store.strictHierarchy_of_isStrict (by decide +kernel)
  have htokens : (afterOpening circularModule).TokensLead := by
    refine Store.tokensLead_of_produced fun place hplace => ?_
    rw [modules_afterOpening] at hplace
    rw [List.mem_singleton.mp hplace]
    exact ⟨.built "Loop.dll" circularSteps, by decide⟩
  have hfirst : (afterOpening circularModule).definitions.any (fun type =>
      type.fullName == "Loop.First" && type.definition.directSupertypes == ["Loop.Second"]) =
        true := by
    decide +kernel
  have hsecond : (afterOpening circularModule).definitions.any (·.fullName == "Loop.Second") =
      true := by
    decide +kernel
  rcases List.any_eq_true.mp hfirst with ⟨type, hmem, hfirst⟩
  rcases List.any_eq_true.mp hsecond with ⟨base, hbaseMem, hsecond⟩
  rw [Bool.and_eq_true, beq_iff_eq, beq_iff_eq] at hfirst
  rw [beq_iff_eq] at hsecond
  have htype := Store.mem_definitions.mp hmem
  have hbase := Store.mem_definitions.mp hbaseMem
  have hne : type ≠ base := by
    rintro rfl
    rw [hfirst.1] at hsecond
    exact absurd hsecond (by decide)
  have hinverse := base_types_inverse_to_derived_types none {} [openModule circularModule]
    { autoLoad := false } (openModule circularModule).source rfl hstrict htokens type base htype
    hbase hne
  have hderives : (afterOpening circularModule).DerivesFrom base type := by
    refine ⟨hbase, htype, ?_⟩
    rw [hfirst.2, hsecond]
    exact List.mem_singleton_self _
  have hunfolds : Relation.TransGen ((afterOpening circularModule).GroupShows
      { autoLoad := false } (openModule circularModule).source .derivedTypesGroup) base.node
        type.node :=
    .single ((Store.groupShows_derived_iff (wellFormed_run _ Store.empty_wellFormed) htokens
      hbase).mpr ⟨type, hderives, rfl⟩)
  exact ⟨type, base, ⟨hstrict, htokens, htype, hbase, hne⟩, hinverse.mpr hunfolds, hunfolds⟩

end Worker
end AssemblyBrowser
