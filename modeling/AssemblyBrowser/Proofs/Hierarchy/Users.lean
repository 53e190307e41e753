import AssemblyBrowser.Proofs.Browsing.Agreement
import AssemblyBrowser.Proofs.Hierarchy.Inverse

/-!
# The users of a type

A definition uses a type if its signature names the type anywhere: in an argument of
a generic type, in the elements of an array or behind a pointer. The accessors of a
property or an event are not shown by themselves, as their types are those of the
property or the event. But the users of a type are not looked for among the parameters
of an indexer. If nothing else in the indexer names the type, neither the indexer nor
its accessors are among the users.
-/

namespace AssemblyBrowser

/-!
## Types that signatures name
-/

namespace TypeExpr

/-- Somewhere in the expression stands the type of that full name. -/
inductive Names (fullName : String) : TypeExpr → Prop
  | primitive {type : Primitive} (h : fullName = "System." ++ type.systemName) :
      Names fullName (.primitive type)
  | named {name : TypeName} (h : name.fullName = fullName) : Names fullName (.named name)
  | generic {name : TypeName} {arguments : List TypeExpr} (h : name.fullName = fullName) :
      Names fullName (.generic name arguments)
  | argument {name : TypeName} {arguments : List TypeExpr} {argument : TypeExpr}
      (hmem : argument ∈ arguments) (h : Names fullName argument) :
      Names fullName (.generic name arguments)
  | vector {element : TypeExpr} (h : Names fullName element) : Names fullName (.vector element)
  | array {element : TypeExpr} {rank : Nat} (h : Names fullName element) :
      Names fullName (.array element rank)
  | pointer {target : TypeExpr} (h : Names fullName target) : Names fullName (.pointer target)
  | reference {target : TypeExpr} (h : Names fullName target) :
      Names fullName (.reference target)

variable {fullName : String}

theorem names_generic_iff {name : TypeName} {arguments : List TypeExpr} :
    Names fullName (.generic name arguments) ↔
      name.fullName = fullName ∨ ∃ argument ∈ arguments, Names fullName argument := by
  constructor
  · intro h
    cases h with
    | generic h => exact .inl h
    | argument hmem h => exact .inr ⟨_, hmem, h⟩
  · rintro (h | ⟨argument, hmem, h⟩)
    · exact .generic h
    · exact .argument hmem h

mutual

theorem mentions_iff : ∀ type : TypeExpr, type.mentions fullName = true ↔ Names fullName type
  | .primitive _ => beq_iff_eq.trans ⟨.primitive, fun | .primitive h => h⟩
  | .named _ => beq_iff_eq.trans ⟨.named, fun | .named h => h⟩
  | .generic _ arguments => by
      rw [mentions, Bool.or_eq_true, beq_iff_eq, mentionsAny_iff arguments, names_generic_iff]
  | .vector element => (mentions_iff element).trans ⟨.vector, fun | .vector h => h⟩
  | .array element _ => (mentions_iff element).trans ⟨.array, fun | .array h => h⟩
  | .pointer target => (mentions_iff target).trans ⟨.pointer, fun | .pointer h => h⟩
  | .reference target => (mentions_iff target).trans ⟨.reference, fun | .reference h => h⟩
  | .parameter _ => iff_of_false Bool.false_ne_true nofun
  | .functionPointer => iff_of_false Bool.false_ne_true nofun

theorem mentionsAny_iff : ∀ types : List TypeExpr,
    mentionsAny fullName types = true ↔ ∃ type ∈ types, Names fullName type
  | [] => iff_of_false Bool.false_ne_true fun ⟨_, hmem, _⟩ => List.not_mem_nil hmem
  | type :: rest => by
      rw [mentionsAny, Bool.or_eq_true, mentions_iff type, mentionsAny_iff rest,
        List.exists_mem_cons_iff]

end

instance (type : TypeExpr) : Decidable (Names fullName type) :=
  decidable_of_iff _ (mentions_iff type)

theorem any_mentions_iff {types : List TypeExpr} :
    types.any (·.mentions fullName) = true ↔ ∃ type ∈ types, Names fullName type := by
  simp only [List.any_eq_true, mentions_iff]

end TypeExpr

namespace Entity

/-- The types in the signature of a definition. -/
def signature : Entity → List TypeExpr
  | .type definition => definition.base.toList ++ definition.interfaces
  | .field definition => [definition.type]
  | .property definition => definition.type :: definition.parameters
  | .event definition => [definition.type]
  | .method definition => definition.returnType :: definition.parameters.map Parameter.type

/-- The signature of a definition names the type of that full name. -/
def Uses (fullName : String) (entity : Entity) : Prop :=
  ∃ type ∈ entity.signature, type.Names fullName

/-- The parameters of an indexer name the type of that full name, and the type of the indexer does
not. -/
def UsesAsIndexOnly (fullName : String) : Entity → Prop
  | .property definition => ¬ definition.type.Names fullName ∧
      ∃ type ∈ definition.parameters, type.Names fullName
  | _ => False

instance (fullName : String) (entity : Entity) : Decidable (entity.Uses fullName) :=
  inferInstanceAs (Decidable (∃ type ∈ entity.signature, type.Names fullName))

instance (fullName : String) : ∀ entity, Decidable (UsesAsIndexOnly fullName entity)
  | .property definition => inferInstanceAs (Decidable (¬ definition.type.Names fullName ∧
      ∃ type ∈ definition.parameters, type.Names fullName))
  | .type _ => instDecidableFalse
  | .method _ => instDecidableFalse
  | .field _ => instDecidableFalse
  | .event _ => instDecidableFalse

variable {fullName : String}

theorem UsesAsIndexOnly.uses {entity : Entity} (h : entity.UsesAsIndexOnly fullName) :
    entity.Uses fullName := by
  cases entity with
  | property definition =>
      obtain ⟨-, type, hmem, hnames⟩ := h
      exact ⟨type, List.mem_cons_of_mem _ hmem, hnames⟩
  | _ => exact h.elim

/-- A definition that uses a type is found, if it does not do so in the parameters of an indexer
only. -/
theorem isUser_iff {entity : Entity} : PlacedModule.isUser fullName entity = true ↔
    entity.Uses fullName ∧ ¬ entity.UsesAsIndexOnly fullName := by
  unfold Uses
  cases entity with
  | type definition =>
      rw [PlacedModule.isUser, TypeExpr.any_mentions_iff]
      exact (and_iff_left not_false).symm
  | field definition =>
      simp only [PlacedModule.isUser, TypeExpr.mentions_iff, signature, List.mem_singleton,
        exists_eq_left]
      exact (and_iff_left not_false).symm
  | property definition =>
      rw [PlacedModule.isUser, TypeExpr.mentions_iff, signature, List.exists_mem_cons_iff,
        UsesAsIndexOnly]
      by_cases htype : definition.type.Names fullName <;> simp [htype]
  | event definition =>
      simp only [PlacedModule.isUser, TypeExpr.mentions_iff, signature, List.mem_singleton,
        exists_eq_left]
      exact (and_iff_left not_false).symm
  | method definition =>
      have hparameters : definition.parameters.any (·.type.mentions fullName) =
          (definition.parameters.map Parameter.type).any (·.mentions fullName) := List.any_map.symm
      rw [PlacedModule.isUser, Bool.or_eq_true, TypeExpr.mentions_iff, hparameters,
        TypeExpr.any_mentions_iff, signature, List.exists_mem_cons_iff]
      exact (and_iff_left not_false).symm

end Entity

/-!
## The users that are shown
-/

namespace PlacedModule

/-- Among the users of a type the type itself and accessors are left out. -/
def leavesOut (place : PlacedModule) (fullName : String) : Entity → Bool
  | .type definition => place.code.fullName definition.token == fullName
  | .method definition => definition.isAccessor
  | _ => false

/-- The definitions that use a type, but for those that are left out. -/
def usages (place : PlacedModule) (fullName : String) : List Entity :=
  place.code.entities.filter fun entity =>
    !place.leavesOut fullName entity && decide (entity.Uses fullName)

/-- The indexers that use a type in their parameters only. -/
def indexUsages (place : PlacedModule) (fullName : String) : List Entity :=
  place.code.entities.filter fun entity => decide (entity.UsesAsIndexOnly fullName)

variable {place : PlacedModule} {fullName : String}

theorem possibleUsers_perm : (place.possibleUsers fullName).Perm
    (place.code.entities.filter fun entity => !place.leavesOut fullName entity) := by
  have hall {α : Type} (items : List α) : items.filter (fun _ => true) = items :=
    List.filter_eq_self.mpr fun _ _ => rfl
  have hentities : place.code.entities.filter (fun entity => !place.leavesOut fullName entity) =
      (place.code.types.toList.filter fun type =>
          place.code.fullName type.token != fullName).map .type
        ++ (place.code.methods.toList.filter (!·.isAccessor)).map .method
        ++ place.code.fields.toList.map .field ++ place.code.properties.toList.map .property
        ++ place.code.events.toList.map .event := by
    simp only [CodeModule.entities, List.filter_append, List.filter_map]
    congr 1
    · congr 1
      · congr 1
        exact congrArg _ (hall _)
      · exact congrArg _ (hall _)
    · exact congrArg _ (hall _)
  have hlast {α : Type} (first second third last : List α) :
      (first ++ (second ++ (third ++ last))).Perm (last ++ (first ++ (second ++ third))) := by
    simpa only [List.append_assoc] using
      @List.perm_append_comm α (first ++ second ++ third) last
  rw [hentities]
  simp only [possibleUsers, List.append_assoc]
  exact (hlast ..).append_left _

theorem not_leavesOut_of_usesAsIndexOnly {entity : Entity}
    (h : entity.UsesAsIndexOnly fullName) : (!place.leavesOut fullName entity) = true := by
  cases entity with
  | property => rfl
  | _ => exact h.elim

/-- The users that are shown, with the indexers that are not. -/
theorem users_append_indexUsages_perm :
    ((place.possibleUsers fullName).filter (isUser fullName) ++ place.indexUsages fullName).Perm
      (place.usages fullName) := by
  have hshown : ((place.possibleUsers fullName).filter (isUser fullName)).Perm
      ((place.usages fullName).filter fun entity => !decide (entity.UsesAsIndexOnly fullName)) := by
    refine (possibleUsers_perm.filter _).trans (.of_eq ?_)
    rw [usages, List.filter_filter, List.filter_filter]
    refine List.filter_congr fun entity _ => ?_
    rw [Bool.eq_iff_iff, Bool.and_eq_true, Bool.and_eq_true, Bool.and_eq_true, Entity.isUser_iff,
      Bool.not_eq_true' (decide _), decide_eq_false_iff_not, decide_eq_true_iff]
    tauto
  have hhidden : place.indexUsages fullName =
      (place.usages fullName).filter fun entity => decide (entity.UsesAsIndexOnly fullName) := by
    rw [usages, List.filter_filter]
    refine List.filter_congr fun entity _ => ?_
    rw [Bool.eq_iff_iff, Bool.and_eq_true, Bool.and_eq_true, decide_eq_true_iff, decide_eq_true_iff]
    exact (and_iff_left_of_imp fun honly =>
      ⟨not_leavesOut_of_usesAsIndexOnly honly, honly.uses⟩).symm
  rw [hhidden]
  exact (hshown.append_right _).trans
    (List.perm_append_comm.trans (List.filter_append_perm _ _))

end PlacedModule

namespace Store

variable {store : Store} {fullName : String}

/-- The nodes of all definitions that use a type, but for those that are left out. -/
def usageNodes (store : Store) (fullName : String) : List Node :=
  store.modules.flatMap fun place => (place.usages fullName).map place.analyzerNode

/-- The nodes of the indexers that use a type in their parameters only. -/
def indexUsageNodes (store : Store) (fullName : String) : List Node :=
  store.modules.flatMap fun place => (place.indexUsages fullName).map place.analyzerNode

/-- No definition is missing among the users but the indexers. -/
theorem users_append_indexUsageNodes_perm :
    (store.users fullName ++ store.indexUsageNodes fullName).Perm (store.usageNodes fullName) := by
  have hplaces (place : PlacedModule) : (place.userNodes fullName ++
      (place.indexUsages fullName).map place.analyzerNode).Perm
        ((place.usages fullName).map place.analyzerNode) := by
    rw [PlacedModule.userNodes, ← List.map_append]
    exact PlacedModule.users_append_indexUsages_perm.map _
  exact ((Node.sortByName_perm _).append_right _).trans
    ((List.flatMap_append_perm _ _ _).trans (List.Perm.flatMap_left _ fun place _ => hplaces place))

theorem indexUsageNodes_eq_nil_iff : store.indexUsageNodes fullName = [] ↔
    ∀ place ∈ store.modules, ∀ property ∈ place.code.properties,
      (∃ type ∈ property.parameters, type.Names fullName) → property.type.Names fullName := by
  simp only [indexUsageNodes, List.flatMap_eq_nil_iff, List.map_eq_nil_iff,
    PlacedModule.indexUsages, List.filter_eq_nil_iff, decide_eq_true_iff]
  have hmember (m : CodeModule) (property : PropertyDefinition) :
      .property property ∈ m.entities ↔ property ∈ m.properties := by
    simp [CodeModule.entities]
  refine forall₂_congr fun place _ => ⟨fun hnone property hmem hparameters => ?_,
    fun hall entity hmem honly => ?_⟩
  · by_contra htype
    exact hnone (.property property) ((hmember ..).mpr hmem) ⟨htype, hparameters⟩
  · cases entity with
    | property property =>
        exact honly.1 (hall property ((hmember ..).mp hmem) honly.2)
    | _ => exact honly

/-- The group of a type's users shows the definitions that use the type, the type itself and
accessors left out, but it does not show the indexers that use it in their parameters only. So
nothing is missing if and only if there are no such indexers. -/
theorem used_by_complete_iff {resolver : Resolver} {source : ArchiveSource} {address : NodeAddress}
    {subject : PlacedType} (hkind : address.kind = .analyzerGroup)
    (hsubject : store.subjectOf source address = .ok subject) :
    ∃ nodes, store.children resolver source address = (store, .ok nodes) ∧
      (nodes ++ store.indexUsageNodes subject.fullName).Perm (store.usageNodes subject.fullName) ∧
      (nodes.Perm (store.usageNodes subject.fullName) ↔
        ∀ place ∈ store.modules, ∀ property ∈ place.code.properties,
          (∃ type ∈ property.parameters, type.Names subject.fullName) →
            property.type.Names subject.fullName) := by
  have hlisting : store.listing source address = .ok (store.users subject.fullName) := by
    unfold listing
    rw [hkind]
    simp only [hsubject]
    rfl
  have hmissing := @users_append_indexUsageNodes_perm store subject.fullName
  refine ⟨_, children_of_listing (by simp [hkind]) hlisting, hmissing, ?_⟩
  rw [← indexUsageNodes_eq_nil_iff]
  constructor
  · intro hcomplete
    have hlength := hmissing.length_eq
    rw [List.length_append, hcomplete.length_eq] at hlength
    exact List.length_eq_zero_iff.mp (by omega)
  · intro hnone
    rwa [hnone, List.append_nil] at hmissing

section Sample

def keyType : TypeDefinition :=
  { token := TableId.typeDef.token 1, namespaceName := "N", name := "Key", flags := 0 }

def shelfType : TypeDefinition :=
  { token := TableId.typeDef.token 2, namespaceName := "N", name := "Shelf", flags := 0
    properties := [TableId.property.token 1]
    methods := [TableId.methodDef.token 1, TableId.methodDef.token 2] }

/-- An indexer of numbers by keys. -/
def itemIndexer : PropertyDefinition :=
  { token := TableId.property.token 1, name := "Item", declaringType := shelfType.token
    type := .primitive .int32, parameters := [.ofName "N" "Key"]
    getter := some (TableId.methodDef.token 1) }

/-- A class with an indexer and a method, both with a key as their parameter. -/
def shelfModule : CodeModule :=
  { name := "M", runtimeVersion := "", types := #[keyType, shelfType], properties := #[itemIndexer]
    methods := #[
      { token := TableId.methodDef.token 1, name := "get_Item", flags := 0
        declaringType := shelfType.token, returnType := .primitive .int32
        parameters := [{ type := .ofName "N" "Key" }], role := some .getter },
      { token := TableId.methodDef.token 2, name := "Part", flags := 0
        declaringType := shelfType.token, returnType := .ofName "N" "Shelf"
        parameters := [{ type := .ofName "N" "Key" }] }] }

theorem subjectOf_shelfModule {type : TypeDefinition}
    (h : shelfModule.type? type.token = some type) (source : ArchiveSource) :
    (holding shelfModule).subjectOf source (.group "M.dll" none .analyzerGroup type.token) =
      .ok { place := onlyPlace shelfModule, definition := type } := by
  have hplace : (holding shelfModule).placeOf source
      (.group "M.dll" none .analyzerGroup type.token) = .ok (onlyPlace shelfModule) :=
    placeOf_eq (paths_holding shelfModule) (List.mem_singleton_self _) rfl rfl
  unfold subjectOf
  rw [hplace, Outcome.ok_bind]
  show typeOf (onlyPlace shelfModule) type.token = _
  unfold typeOf
  rw [show (onlyPlace shelfModule).code.type? type.token = some type from h]

/-- Only the type of the method names the class itself. -/
theorem used_by_complete_iff_shelf :
    (holding shelfModule).subjectOf (.ofFiles .standard {})
        (.group "M.dll" none .analyzerGroup shelfType.token) =
      .ok { place := onlyPlace shelfModule, definition := shelfType } ∧
    ∃ nodes, (holding shelfModule).children { autoLoad := false } (.ofFiles .standard {})
        (.group "M.dll" none .analyzerGroup shelfType.token) = (holding shelfModule, .ok nodes) ∧
      nodes.Perm ((holding shelfModule).usageNodes "N.Shelf") ∧
      ((holding shelfModule).usageNodes "N.Shelf").map Node.displayName =
        ["Part(Key) : Shelf"] := by
  have hsubject := @subjectOf_shelfModule shelfType rfl (.ofFiles .standard {})
  obtain ⟨nodes, hnodes, -, hcomplete⟩ :=
    @used_by_complete_iff _ { autoLoad := false } _ _ _ rfl hsubject
  have hname : PlacedType.fullName { place := onlyPlace shelfModule, definition := shelfType } =
      "N.Shelf" := by
    decide +kernel
  rw [hname] at hcomplete
  refine ⟨hsubject, nodes, hnodes, hcomplete.mpr ?_, ?_⟩
  · intro place hplace property hproperty hparameters
    cases List.mem_singleton.mp hplace
    cases List.mem_singleton.mp (List.mem_toArray.mp hproperty)
    exact absurd hparameters (by decide +kernel)
  · decide +kernel

/-- An indexer with a key as its parameter is not among the users of the keys. -/
theorem indexer_not_among_users : ∃ nodes,
    (holding shelfModule).children { autoLoad := false } (.ofFiles .standard {})
        (.group "M.dll" none .analyzerGroup keyType.token) = (holding shelfModule, .ok nodes) ∧
      (onlyPlace shelfModule).analyzerNode (.property itemIndexer) ∈
        (holding shelfModule).usageNodes "N.Key" ∧
      (onlyPlace shelfModule).analyzerNode (.property itemIndexer) ∉ nodes := by
  have hlisting : (holding shelfModule).listing (.ofFiles .standard {})
      (.group "M.dll" none .analyzerGroup keyType.token) =
        .ok ((holding shelfModule).users "N.Key") := by
    show ((holding shelfModule).subjectOf _ (.group _ _ .analyzerGroup _) >>= fun subject =>
      pure ((holding shelfModule).users subject.fullName)) = _
    rw [subjectOf_shelfModule rfl]
    rfl
  refine ⟨_, children_of_listing (by decide) hlisting, ?_, ?_⟩
  · refine List.mem_flatMap.mpr ⟨_, List.mem_singleton_self _, List.mem_map_of_mem ?_⟩
    refine List.mem_filter.mpr ⟨by simp [CodeModule.entities, shelfModule], ?_⟩
    decide +kernel
  · rw [users, (Node.sortByName_perm _).mem_iff, modules_holding]
    decide +kernel

end Sample

end Store

end AssemblyBrowser
