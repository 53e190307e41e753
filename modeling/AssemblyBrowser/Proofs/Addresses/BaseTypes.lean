import AssemblyBrowser.Proofs.Addresses.Places

/-!
# Base types without opening archives

A resolver that opens no archives finds the definitions of supertypes in the
modules that are open, and leaves the store as it is. So every node that a walk
over base types shows is the one of a type in the store, or says that it could
not be resolved.
-/

namespace AssemblyBrowser

/-- A type of one of the modules. -/
def Store.Defines (store : Store) (found : PlacedType) : Prop :=
  found.place ∈ store.modules ∧ found.definition ∈ found.place.code.types

/-- A node of a type in the store, or one of a supertype that has no definition. -/
def Store.ShowsBaseType (store : Store) (node : Node) : Prop :=
  node.badges = .unresolved ∨
    ∃ found, store.Defines found ∧ node = found.place.typeNode found.definition

namespace PlacedModule

theorem defines_of_findType? {store : Store} {place : PlacedModule} (hplace : place ∈ store.modules)
    {fullName : String} {found : PlacedType} (h : place.findType? fullName = some found) :
    store.Defines found := by
  rcases Option.map_eq_some_iff.mp h with ⟨definition, hfound, rfl⟩
  have hmem := List.mem_reverse.mp (List.mem_of_find?_eq_some hfound)
  exact ⟨hplace, Array.mem_toList_iff.mp hmem⟩

end PlacedModule

namespace Resolver

variable {store : Store} {resolver : Resolver}

theorem defines_of_findType? {fullName : String} {found : PlacedType}
    (h : store.findType? fullName = some found) : store.Defines found := by
  rcases List.exists_of_findSome?_eq_some h with ⟨place, hplace, hfound⟩
  exact PlacedModule.defines_of_findType? hplace hfound

theorem mem_modules_of_loaded? {name : String} {place : PlacedModule}
    (h : loaded? store name = some place) : place ∈ store.modules := by
  rcases List.exists_of_findSome?_eq_some h with ⟨archive, harchive, hfound⟩
  refine Store.mem_modules harchive ?_
  split at hfound
  case h_1 code hhandle =>
    split at hfound
    · rw [← Option.some.inj hfound]
      exact LoadedArchive.mem_modules_of_handle hhandle
    · cases hfound
  case h_2 => cases hfound

theorem mem_modules_of_beside? {requesting : LoadedArchive} (harchive : requesting ∈ store.archives)
    {name : String} {place : PlacedModule} (h : beside? requesting name = some place) :
    place ∈ store.modules := by
  rcases Option.bind_eq_some_iff.mp h with ⟨container, _, hentry⟩
  rcases Option.bind_eq_some_iff.mp hentry with ⟨entry, _, hplace⟩
  refine Store.mem_modules harchive ?_
  cases houtcome : requesting.place (some entry.path) with
  | ok found =>
      rw [houtcome] at hplace
      rw [← Option.some.inj hplace]
      exact LoadedArchive.mem_modules_of_place houtcome
  | error error =>
      rw [houtcome] at hplace
      cases hplace

/-- A reference is resolved to a module of the store, which stays as it is. -/
theorem resolve_closed (source : ArchiveSource) (hclosed : resolver.autoLoad = false)
    {requesting : LoadedArchive} (harchive : requesting ∈ store.archives) (name : String) :
    (resolver.resolve source store requesting name).1 = store ∧
      ∀ place ∈ (resolver.resolve source store requesting name).2, place ∈ store.modules := by
  unfold resolve
  cases hloaded : loaded? store name with
  | some found =>
      refine ⟨rfl, fun place hplace => ?_⟩
      rw [← Option.some.inj hplace]
      exact mem_modules_of_loaded? hloaded
  | none =>
      cases hbeside : beside? requesting name with
      | some found =>
          refine ⟨rfl, fun place hplace => ?_⟩
          rw [← Option.some.inj hplace]
          exact mem_modules_of_beside? harchive hbeside
      | none =>
          rw [hclosed]
          exact ⟨rfl, fun place hplace => by cases hplace⟩

/-- So is a name. -/
theorem definition_closed (source : ArchiveSource) (hclosed : resolver.autoLoad = false)
    {origin : PlacedModule} (horigin : origin ∈ store.modules) (name : TypeName) :
    (resolver.definition source store origin name).1 = store ∧
      ∀ found ∈ (resolver.definition source store origin name).2, store.Defines found := by
  have hanywhere {first : Option PlacedType} (hfirst : ∀ found ∈ first, store.Defines found) :
      ∀ found ∈ first <|> store.findType? name.fullName, store.Defines found := by
    intro found hfound
    cases first with
    | some other => exact hfirst found hfound
    | none => exact defines_of_findType? hfound
  unfold definition
  cases name.scope with
  | none => exact ⟨rfl, hanywhere fun found => PlacedModule.defines_of_findType? horigin⟩
  | some assembly =>
      cases hrequesting : store.find? source origin.archivePath with
      | none => exact ⟨rfl, fun found hfound => by cases hfound⟩
      | some requesting =>
          rcases resolve_closed source hclosed (Store.mem_archives_of_find? hrequesting)
            assembly with ⟨hstore, hplaces⟩
          refine ⟨hstore, ?_⟩
          dsimp only
          rw [hstore]
          refine hanywhere fun found hfound => ?_
          rcases Option.bind_eq_some_iff.mp hfound with ⟨place, hplace, hfound⟩
          exact PlacedModule.defines_of_findType? (hplaces place hplace) hfound

theorem origin_of_mem_ofType {place : PlacedModule} {type : TypeDefinition} {next : Supertype}
    (h : next ∈ Supertype.ofType place type) : next.origin = place := by
  rcases List.mem_append.mp h with hbase | hinterface
  · rcases List.mem_map.mp hbase with ⟨base, _, rfl⟩
    rfl
  · rcases List.mem_map.mp hinterface with ⟨interface, _, rfl⟩
    rfl

/-- A step shows a base type of the store, and goes on from modules of the store. -/
theorem visit_closed (interfacesOnly : Bool) (supertype : Supertype) (name : TypeName)
    {result : Option PlacedType} (hresult : ∀ found ∈ result, store.Defines found) :
    (∀ node ∈ (visit interfacesOnly supertype name result).1, store.ShowsBaseType node) ∧
      ∀ next ∈ (visit interfacesOnly supertype name result).2, next.origin ∈ store.modules := by
  cases result with
  | some found =>
      have hdefines := hresult found rfl
      unfold visit
      dsimp only
      split
      · simp
      · constructor
        · intro node hnode
          exact .inr ⟨found, hdefines, (Option.some.inj hnode).symm⟩
        · intro next hnext
          split at hnext
          · cases hnext
          · rw [origin_of_mem_ofType hnext]
            exact hdefines.1
  | none =>
      unfold visit
      dsimp only
      split
      · simp
      · constructor
        · intro node hnode
          rw [← Option.some.inj hnode]
          exact .inl rfl
        · intro next hnext
          cases hnext

/-- A walk that starts from modules of the store leaves the store as it is. -/
theorem walk_closed (source : ArchiveSource) (hclosed : resolver.autoLoad = false)
    (interfacesOnly : Bool) (loads steps : Nat) (seen : List String) {queue : List Supertype}
    (hqueue : ∀ supertype ∈ queue, supertype.origin ∈ store.modules) :
    (walk resolver source interfacesOnly loads steps store seen queue).1 = store ∧
      ∀ node ∈ (walk resolver source interfacesOnly loads steps store seen queue).2,
        store.ShowsBaseType node := by
  -- No archive is opened, so only the steps count down.
  induction steps generalizing seen queue with
  | zero => cases queue <;> simp [walk]
  | succ steps ih =>
      cases queue with
      | nil => simp [walk]
      | cons supertype rest =>
          have hrest : ∀ next ∈ rest, next.origin ∈ store.modules := fun next hnext =>
            hqueue next (List.mem_cons_of_mem _ hnext)
          rw [walk]
          cases supertype.type.typeName? with
          | none => exact ih _ hrest
          | some name =>
              dsimp only
              split
              · exact ih _ hrest
              · rcases definition_closed source hclosed (hqueue supertype List.mem_cons_self)
                  name with ⟨hstore, hfound⟩
                rcases visit_closed interfacesOnly supertype name hfound with
                  ⟨hnode, hfollowing⟩
                rw [hstore, if_pos rfl]
                rcases ih (name.fullName :: seen)
                  (List.forall_mem_append.mpr ⟨hrest, hfollowing⟩) with ⟨hwalk, hnodes⟩
                refine ⟨hwalk, fun node hmem => ?_⟩
                rcases List.mem_append.mp hmem with hhere | hlater
                · exact hnode node (Option.mem_toList.mp hhere)
                · exact hnodes node hlater

theorem baseTypes_closed (source : ArchiveSource) (hclosed : resolver.autoLoad = false)
    {subject : PlacedType} (hplace : subject.place ∈ store.modules) :
    (resolver.baseTypes source store subject).1 = store ∧
      ∀ node ∈ (resolver.baseTypes source store subject).2, store.ShowsBaseType node := by
  have hqueue : ∀ next ∈ Supertype.ofType subject.place subject.definition,
      next.origin ∈ store.modules := fun next hnext => by
    rw [origin_of_mem_ofType hnext]
    exact hplace
  rcases walk_closed source hclosed (subject.definition.kind == .interfaceType) source.fileCount
    (store.supertypeCount + (Supertype.ofType subject.place subject.definition).length)
    [subject.place.code.fullName subject.definition.token] hqueue with ⟨hstore, hnodes⟩
  refine ⟨hstore, fun node hnode => hnodes node ?_⟩
  exact List.mem_mergeSort.mp hnode

end Resolver
end AssemblyBrowser
