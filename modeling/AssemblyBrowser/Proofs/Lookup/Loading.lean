import AssemblyBrowser.Proofs.Lookup.Numbering
import AssemblyBrowser.Proofs.Passes

/-!
# Loading keeps rows numbered

Every pass over a table makes one definition for each row, under the token of
the row, and later passes change definitions in place. The lists of a type are
filled from rows that have been compared with the number of rows, or from the
definitions that a pass has just made.
-/

namespace AssemblyBrowser
namespace ImageMetadata

variable {metadata : ImageMetadata} {scope : TypeScope} {m after : CodeModule}

/-- What is made for every row of a table is numbered. -/
theorem numbered_of_mapM {α : Type} (token : α → Token) {table : TableId}
    {make : Nat → Except Error α} {values : List α}
    (h : (metadata.rows table).mapM make = .ok values)
    (htoken : ∀ row value, make row = .ok value → token value = table.token row) :
    Numbered table token values.toArray ∧ values.length = metadata.tables.rows table := by
  rcases mapM_rows h with ⟨hlength, hrows⟩
  refine ⟨fun index item hitem => ?_, hlength⟩
  rw [List.getElem?_toArray] at hitem
  rcases List.getElem?_eq_some_iff.mp hitem with ⟨hindex, rfl⟩
  exact htoken _ _ (hrows index hindex)

/-!
## Types
-/

/-- The types as passes find them: numbered, and listing rows of the image's tables. -/
structure TypesListed (metadata : ImageMetadata) (types : Array TypeDefinition) : Prop where
  numbered : Numbered .typeDef TypeDefinition.token types
  size_eq : types.size = metadata.tables.rows .typeDef
  lists : ∀ type ∈ types, type.ListsWithin metadata.tables.rows

/-- Rows that are kept only where they exist are named. -/
theorem namesRow_existing {table : TableId} {listed : List Nat} :
    ∀ token ∈ (listed.filter fun r => 1 ≤ r ∧ r ≤ metadata.tables.rows table).map table.token,
      NamesRow table (metadata.tables.rows table) token := by
  intro token hmem
  rcases List.mem_map.mp hmem with ⟨row, hrow, htoken⟩
  have hbounds : 1 ≤ row ∧ row ≤ metadata.tables.rows table := by
    simpa using (List.mem_filter.mp hrow).2
  exact ⟨row, hbounds.1, hbounds.2, htoken.symm⟩

theorem typeSkeleton_lists {nesting : List (Nat × Nat)} {generics : List GenericParameterRow}
    {row : Nat} {type : TypeDefinition}
    (h : metadata.typeSkeleton nesting generics row = .ok type) :
    type.ListsWithin metadata.tables.rows := by
  rcases typeSkeleton_eq h with ⟨fields, methods, namespaceName, name, flags, -, -, rfl⟩
  refine ⟨?_, namesRow_existing, namesRow_existing, ?_, ?_⟩ <;> (intro token hmem; cases hmem)

theorem TypesListed.linkNesting {types : Array TypeDefinition} (h : metadata.TypesListed types) :
    metadata.TypesListed (linkNesting types) := by
  refine ⟨h.numbered.mapIdx fun _ _ => rfl, ?_, ?_⟩
  · rw [ImageMetadata.linkNesting, Array.size_mapIdx, h.size_eq]
  · intro type hmem
    rcases Array.mem_mapIdx.mp hmem with ⟨index, hindex, rfl⟩
    have hlists := h.lists types[index] (Array.getElem_mem hindex)
    refine ⟨?_, hlists.fields, hlists.methods, hlists.properties, hlists.events⟩
    intro token htoken
    rcases List.mem_map.mp htoken with ⟨nested, hnested, rfl⟩
    rw [← h.size_eq]
    exact h.numbered.namesRow (Array.mem_toList_iff.mp (List.mem_filter.mp hnested).1)

theorem typesListed_typeSkeletons {types : Array TypeDefinition}
    (h : metadata.typeSkeletons = .ok types) : metadata.TypesListed types := by
  rcases typeSkeletons_ok h with ⟨nesting, generics, unlinked, _, _, hunlinked, rfl⟩
  have ⟨hnumbered, hlength⟩ := numbered_of_mapM TypeDefinition.token hunlinked
    fun _ _ htype => (typeSkeleton_ok htype).1
  refine TypesListed.linkNesting ⟨hnumbered, by rw [List.size_toArray, hlength], ?_⟩
  intro type hmem
  rcases Array.mem_iff_getElem.mp hmem with ⟨index, hindex, rfl⟩
  exact typeSkeleton_lists ((mapM_rows hunlinked).2 index (by simpa using hindex))

theorem addHierarchy_eq (h : metadata.addHierarchy scope m = .ok after)
    (hlisted : metadata.TypesListed m.types) :
    ∃ types, after = { m with types } ∧ metadata.TypesListed types := by
  unfold addHierarchy at h
  rcases Outcome.bind_eq_ok.mp h with ⟨implementations, _, htypes⟩
  rcases Outcome.bind_eq_ok.mp htypes with ⟨types, hmap, hpure⟩
  rcases mapM_rows hmap with ⟨hlength, hrows⟩
  have hat {index : Nat} {type : TypeDefinition} (htype : types.toArray[index]? = some type) :
      ∃ before, m.types[index]? = some before ∧
        ∃ base interfaces kind, type = { before with base, interfaces, kind } := by
    rw [List.getElem?_toArray] at htype
    rcases List.getElem?_eq_some_iff.mp htype with ⟨hindex, rfl⟩
    exact typeWithHierarchy_eq (hrows index hindex)
  refine ⟨types.toArray, (Outcome.pure_eq_ok.mp hpure).symm, ?_, ?_, ?_⟩
  · intro index type htype
    rcases hat htype with ⟨before, hbefore, _, _, _, rfl⟩
    exact hlisted.numbered index before hbefore
  · rw [List.size_toArray, hlength]
  · intro type hmem
    rcases Array.mem_iff_getElem?.mp hmem with ⟨index, htype⟩
    rcases hat htype with ⟨before, hbefore, _, _, _, rfl⟩
    have hlists := hlisted.lists before (Array.mem_of_getElem? hbefore)
    exact ⟨hlists.1, hlists.2, hlists.3, hlists.4, hlists.5⟩

/-!
## Members
-/

theorem addFields_eq (h : metadata.addFields scope m = .ok after) :
    ∃ fields, after = { m with fields } ∧ Numbered .field FieldDefinition.token fields ∧
      fields.size = metadata.tables.rows .field := by
  rcases addFields_read h with ⟨_, fields, _, hafter, hsize, hread⟩
  exact ⟨fields, hafter, fun index field hfield => (hread index field hfield).token, hsize⟩

theorem addMethods_eq (h : metadata.addMethods scope m = .ok after) :
    ∃ methods, after = { m with methods } ∧ Numbered .methodDef MethodDefinition.token methods ∧
      methods.size = metadata.tables.rows .methodDef := by
  rcases addMethods_read h with ⟨_, _, methods, _, _, hafter, hsize, hread⟩
  exact ⟨methods, hafter, fun index method hmethod => (hread index method hmethod).token, hsize⟩

/-- Members that are numbered may be listed with any types. -/
theorem namesRow_filtered {α : Type} {token : α → Token} {table : TableId} {members : List α}
    (hnumbered : Numbered table token members.toArray)
    (hlength : members.length = metadata.tables.rows table) (keep : α → Bool) :
    ∀ listed ∈ (members.filter keep).map token,
      NamesRow table (metadata.tables.rows table) listed := by
  intro listed hmem
  rcases List.mem_map.mp hmem with ⟨member, hmember, rfl⟩
  rw [← hlength]
  exact hnumbered.namesRow (List.mem_toArray.mpr (List.mem_filter.mp hmember).1)

theorem addProperties_eq (h : metadata.addProperties scope m = .ok after)
    (hlisted : metadata.TypesListed m.types) :
    ∃ properties types, after = { m with properties, types } ∧
      Numbered .property PropertyDefinition.token properties ∧
      properties.size = metadata.tables.rows .property ∧ metadata.TypesListed types := by
  rcases addProperties_read h with ⟨_, properties, _, hafter, hlength, hread⟩
  have hnumbered : Numbered .property PropertyDefinition.token properties.toArray :=
    fun index property hproperty =>
      (hread index property (by rwa [List.getElem?_toArray] at hproperty)).token
  refine ⟨_, _, hafter, hnumbered, hlength, hlisted.numbered.mapIdx fun _ _ => rfl,
    by rw [Array.size_mapIdx, hlisted.size_eq], ?_⟩
  intro type hmem
  rcases Array.mem_mapIdx.mp hmem with ⟨index, hindex, rfl⟩
  have hlists := hlisted.lists m.types[index] (Array.getElem_mem hindex)
  exact ⟨hlists.nestedTypes, hlists.fields, hlists.methods,
    namesRow_filtered hnumbered hlength _, hlists.events⟩

theorem addEvents_eq (h : metadata.addEvents scope m = .ok after)
    (hlisted : metadata.TypesListed m.types) :
    ∃ events types, after = { m with events, types } ∧
      Numbered .event EventDefinition.token events ∧
      events.size = metadata.tables.rows .event ∧ metadata.TypesListed types := by
  rcases addEvents_read h with ⟨_, events, _, hafter, hlength, hread⟩
  have hnumbered : Numbered .event EventDefinition.token events.toArray :=
    fun index event hevent =>
      (hread index event (by rwa [List.getElem?_toArray] at hevent)).token
  refine ⟨_, _, hafter, hnumbered, hlength, hlisted.numbered.mapIdx fun _ _ => rfl,
    by rw [Array.size_mapIdx, hlisted.size_eq], ?_⟩
  intro type hmem
  rcases Array.mem_mapIdx.mp hmem with ⟨index, hindex, rfl⟩
  have hlists := hlisted.lists m.types[index] (Array.getElem_mem hindex)
  exact ⟨hlists.nestedTypes, hlists.fields, hlists.methods, hlists.properties,
    namesRow_filtered hnumbered hlength _⟩

/-!
## Passes that change definitions in place
-/

theorem indexed_linkAccessor (h : m.Indexed) (method : Token) (role : AccessorRole)
    (owner : Token) : (linkAccessor m method role owner).Indexed := by
  unfold linkAccessor
  split
  · exact h
  · have hmethods := h.withMethods (h.methods.modify (method.row - 1)
      fun d => (rfl : ({ d with role := some role } : MethodDefinition).token = d.token))
      (Nat.le_of_eq Array.size_modify.symm)
    dsimp only
    split_ifs
    · exact hmethods
    · refine hmethods.withProperties (hmethods.properties.modify _ fun property => ?_)
        (Nat.le_of_eq Array.size_modify.symm)
      cases role <;> rfl
    · refine hmethods.withEvents (hmethods.events.modify _ fun event => ?_)
        (Nat.le_of_eq Array.size_modify.symm)
      cases role <;> rfl

theorem indexed_addAccessors (h : metadata.addAccessors m = .ok after) (hindexed : m.Indexed) :
    after.Indexed := by
  refine Outcome.foldlM_keeps (P := CodeModule.Indexed) h hindexed ?_
  intro before row next hstep hbefore
  rcases Outcome.bind_eq_ok.mp hstep with ⟨bits, _, hrole⟩
  split at hrole
  · rw [← Outcome.pure_eq_ok.mp hrole]
    exact hbefore
  · rcases Outcome.bind_eq_ok.mp hrole with ⟨method, _, howner⟩
    rcases Outcome.bind_eq_ok.mp howner with ⟨owner, _, hpure⟩
    rw [← Outcome.pure_eq_ok.mp hpure]
    exact indexed_linkAccessor hbefore _ _ _

theorem indexed_addConstants (h : metadata.addConstants m = .ok after) (hindexed : m.Indexed) :
    after.Indexed := by
  refine Outcome.foldlM_keeps (P := CodeModule.Indexed) h hindexed ?_
  intro before row next hstep hbefore
  rcases Outcome.bind_eq_ok.mp hstep with ⟨parent, _, hparent⟩
  split at hparent
  · rw [← Outcome.pure_eq_ok.mp hparent]
    exact hbefore
  · rcases Outcome.bind_eq_ok.mp hparent with ⟨elementType, _, hblob⟩
    rcases Outcome.bind_eq_ok.mp hblob with ⟨blob, _, hvalue⟩
    rcases Outcome.bind_eq_ok.mp hvalue with ⟨value?, _, hfield⟩
    split at hfield
    · rw [← Outcome.pure_eq_ok.mp hfield]
      exact hbefore
    · split at hfield
      · rw [← Outcome.pure_eq_ok.mp hfield]
        exact hbefore
      · rw [← Outcome.pure_eq_ok.mp hfield]
        exact hbefore.withFields (hbefore.fields.modify _ fun _ => rfl)
          (Nat.le_of_eq Array.size_modify.symm)

/-!
## All passes
-/

/-- Once there is a definition for every row, what types list exists. -/
theorem TypesListed.indexed (h : metadata.TypesListed m.types)
    (hmethods : Numbered .methodDef MethodDefinition.token m.methods ∧
      m.methods.size = metadata.tables.rows .methodDef)
    (hfields : Numbered .field FieldDefinition.token m.fields ∧
      m.fields.size = metadata.tables.rows .field)
    (hproperties : Numbered .property PropertyDefinition.token m.properties ∧
      m.properties.size = metadata.tables.rows .property)
    (hevents : Numbered .event EventDefinition.token m.events ∧
      m.events.size = metadata.tables.rows .event) : m.Indexed := by
  refine ⟨h.numbered, hmethods.1, hfields.1, hproperties.1, hevents.1, fun type hmem => ?_⟩
  have hlists := h.lists type hmem
  exact ⟨fun token hmem => (hlists.nestedTypes token hmem).mono (Nat.le_of_eq h.size_eq.symm),
    fun token hmem => (hlists.fields token hmem).mono (Nat.le_of_eq hfields.2.symm),
    fun token hmem => (hlists.methods token hmem).mono (Nat.le_of_eq hmethods.2.symm),
    fun token hmem => (hlists.properties token hmem).mono (Nat.le_of_eq hproperties.2.symm),
    fun token hmem => (hlists.events token hmem).mono (Nat.le_of_eq hevents.2.symm)⟩

theorem indexed_toModule {name : String} (h : metadata.toModule name = .ok m) : m.Indexed := by
  rcases toModule_passes h with ⟨scope, start, withHierarchy, withFields, withMethods,
    withProperties, withEvents, withAccessors, hskeletons, hwithHierarchy, hwithFields,
    hwithMethods, hwithProperties, hwithEvents, hwithAccessors, hconstants, _⟩
  rcases addHierarchy_eq hwithHierarchy (typesListed_typeSkeletons hskeletons) with
    ⟨types, rfl, htypes⟩
  rcases addFields_eq hwithFields with ⟨fields, rfl, hfields⟩
  rcases addMethods_eq hwithMethods with ⟨methods, rfl, hmethods⟩
  rcases addProperties_eq hwithProperties htypes with
    ⟨properties, listed, rfl, hproperties, hpropertiesSize, hlisted⟩
  rcases addEvents_eq hwithEvents hlisted with
    ⟨events, all, rfl, hevents, heventsSize, hall⟩
  refine indexed_addConstants hconstants (indexed_addAccessors hwithAccessors ?_)
  exact hall.indexed hmethods hfields ⟨hproperties, hpropertiesSize⟩ ⟨hevents, heventsSize⟩

end ImageMetadata

namespace CodeModule

/-- However a module is loaded, its rows are numbered. -/
theorem indexed_ofImage {image : Image} {name : String} {m : CodeModule}
    (h : ofImage image name = .ok m) : m.Indexed := by
  rcases Outcome.bind_eq_ok.mp h with ⟨metadata, _, hmodule⟩
  exact ImageMetadata.indexed_toModule hmodule

end CodeModule
end AssemblyBrowser
