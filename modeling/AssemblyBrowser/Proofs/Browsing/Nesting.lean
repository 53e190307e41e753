import Mathlib.Data.List.Nodup
import AssemblyBrowser.Proofs.Lookup.Exactness

/-!
# Types by how deep they stand

Browsing comes to a type from the type around it, searching goes through all
types row by row. Both see the same types where every type stands at some depth:
the types at a depth are those inside the types one step further out, and the
types at all depths together are the types of the module.
-/

namespace AssemblyBrowser

theorem nodup_flatMap_of_source {α β : Type} {items : List α} {image : α → List β}
    (hitems : items.Nodup) (himage : ∀ item ∈ items, (image item).Nodup)
    (hsource : ∀ first ∈ items, ∀ second ∈ items, ∀ result,
      result ∈ image first → result ∈ image second → first = second) :
    (items.flatMap image).Nodup := by
  refine List.nodup_flatMap.mpr ⟨himage, hitems.pairwise_of_forall_ne ?_⟩
  intro first hfirst second hsecond hne result hresult hother
  exact hne (hsource first hfirst second hsecond result hresult hother)

/-- The members that a type lists. -/
def TypeDefinition.memberTokens (type : TypeDefinition) : List Token :=
  type.fields ++ type.properties ++ type.events ++ type.methods

namespace CodeModule

variable {m : CodeModule}

/-- The definitions that are no types. -/
def members (m : CodeModule) : List Entity :=
  m.fields.toList.map .field ++ m.properties.toList.map .property ++ m.events.toList.map .event
    ++ m.methods.toList.map .method

/-- A type has so many types around it, and the outermost one stands in no other. -/
inductive StandsAt (m : CodeModule) : Nat → TypeDefinition → Prop
  | top {type : TypeDefinition} (htop : type.declaringType = none) : StandsAt m 0 type
  | inside {depth : Nat} {type outer : TypeDefinition} {token : Token}
      (hdeclared : type.declaringType = some token) (houter : m.type? token = some outer)
      (hdepth : StandsAt m depth outer) : StandsAt m (depth + 1) type

theorem StandsAt.unique {type : TypeDefinition} {depth other : Nat} (h : m.StandsAt depth type)
    (hother : m.StandsAt other type) : depth = other := by
  induction h generalizing other with
  | top htop =>
      cases hother with
      | top => rfl
      | inside hdeclared => simp [htop] at hdeclared
  | inside hdeclared houter _ ih =>
      cases hother with
      | top htop => simp [htop] at hdeclared
      | inside hagain hsame hdepth =>
          rw [hdeclared] at hagain
          cases hagain
          rw [houter] at hsame
          cases hsame
          rw [ih hdepth]

/-- Finitely many types stand no deeper than some bound. -/
theorem StandsAt.exists_bound (types : List TypeDefinition)
    (h : ∀ type ∈ types, ∃ depth, m.StandsAt depth type) :
    ∃ bound, ∀ type ∈ types, ∀ depth, m.StandsAt depth type → depth < bound := by
  induction types with
  | nil => exact ⟨0, by simp⟩
  | cons first rest ih =>
      rcases h first List.mem_cons_self with ⟨depth, hdepth⟩
      rcases ih fun type hmem => h type (List.mem_cons_of_mem first hmem) with ⟨bound, hbound⟩
      refine ⟨max (depth + 1) bound, fun type hmem other hother => ?_⟩
      rcases List.mem_cons.mp hmem with rfl | hrest
      · rw [hother.unique hdepth]
        omega
      · have hlt := hbound type hrest other hother
        omega

/-- A type lists exactly the types that are declared in it, and each of them once. -/
def ListsDeclared (m : CodeModule) : Prop :=
  ∀ outer ∈ m.types, ∀ inner ∈ m.types,
    outer.nestedTypes.count inner.token = if inner.declaringType = some outer.token then 1 else 0

/-- Definitions are listed where they are declared. -/
structure WellNested (m : CodeModule) : Prop where
  /-- What is declared in a type is declared in one that exists. -/
  declared : ∀ entity ∈ m.entities, ∀ token ∈ entity.declaringType, (m.type? token).isSome
  /-- The way from a type to the types around it ends. -/
  ends : ∀ type ∈ m.types, ∃ depth, m.StandsAt depth type
  /-- A type lists exactly the types that are declared in it. -/
  nested : ∀ outer ∈ m.types, ∀ inner ∈ m.types,
    outer.nestedTypes.count inner.token = if inner.declaringType = some outer.token then 1 else 0
  /-- A member is listed once, by the type that it is declared in. -/
  members : ∀ owner ∈ m.types, ∀ member ∈ m.members,
    owner.memberTokens.count member.token =
      if member.declaringType = some owner.token then 1 else 0
  /-- Only the first row can be the one for what belongs to no type, and nothing is inside it. -/
  pseudoType : ∀ type ∈ m.types, type.name = modulePseudoType →
    type.token = TableId.typeDef.token 1 ∧ type.namespaceName = "" ∧ type.nestedTypes = []

/-- A well-nested module of which browsing can show everything that a search finds. Its rows are
numbered, as they are in all modules that are loaded or built, and fit tokens. -/
structure Browsable (m : CodeModule) : Prop where
  indexed : m.Indexed
  rowsFit : m.types.size < 0x1000000
  wellNested : m.WellNested
  /-- The row for what belongs to no type stands in no type itself. -/
  pseudoOnTop : ∀ type ∈ m.types, type.name = modulePseudoType → type.declaringType = none

/-!
## Types inside types
-/

/-- The types that a type lists. -/
def typesInside (m : CodeModule) (outer : TypeDefinition) : List TypeDefinition :=
  outer.nestedTypes.filterMap m.type?

namespace Indexed

variable (h : m.Indexed) (hfit : m.types.size < 0x1000000)

include h hfit

theorem type?_eq_some_iff {token : Token} {type : TypeDefinition} :
    m.type? token = some type ↔ type ∈ m.types ∧ type.token = token :=
  h.types.byRow_eq_some_iff hfit

theorem type?_token {type : TypeDefinition} (hmem : type ∈ m.types) :
    m.type? type.token = some type :=
  (h.type?_eq_some_iff hfit).mpr ⟨hmem, rfl⟩

theorem token_injective {first second : TypeDefinition} (hfirst : first ∈ m.types)
    (hsecond : second ∈ m.types) (hsame : first.token = second.token) : first = second :=
  h.types.eq_of_token hfit hfirst hsecond hsame

end Indexed

namespace ListsDeclared

variable (h : m.ListsDeclared) (hindexed : m.Indexed) (hfit : m.types.size < 0x1000000)
  {outer inner : TypeDefinition} (houter : outer ∈ m.types)

include h hindexed hfit houter

theorem nodup_nestedTypes : outer.nestedTypes.Nodup := by
  -- Only tokens of types are counted, but every token that is listed is one.
  rw [List.nodup_iff_count_le_one]
  intro token
  by_cases hmem : token ∈ outer.nestedTypes
  · have hnames := (hindexed.lists outer houter).nestedTypes token hmem
    rcases hindexed.types.exists_byRow hfit hnames with ⟨inner, hinner⟩
    rcases (hindexed.type?_eq_some_iff hfit).mp hinner with ⟨hrow, rfl⟩
    rw [h outer houter inner hrow]
    split <;> decide
  · rw [List.count_eq_zero.mpr hmem]
    decide

theorem mem_typesInside_iff :
    inner ∈ m.typesInside outer ↔ inner ∈ m.types ∧ inner.declaringType = some outer.token := by
  have hlisted (hinner : inner ∈ m.types) :
      inner.token ∈ outer.nestedTypes ↔ inner.declaringType = some outer.token := by
    rw [← List.count_pos_iff, h outer houter inner hinner]
    split <;> simp_all
  rw [typesInside, List.mem_filterMap]
  constructor
  · rintro ⟨token, hmem, hfound⟩
    rcases (hindexed.type?_eq_some_iff hfit).mp hfound with ⟨hinner, rfl⟩
    exact ⟨hinner, (hlisted hinner).mp hmem⟩
  · rintro ⟨hinner, hdeclared⟩
    exact ⟨inner.token, (hlisted hinner).mpr hdeclared, hindexed.type?_token hfit hinner⟩

theorem nodup_typesInside : (m.typesInside outer).Nodup := by
  refine (h.nodup_nestedTypes hindexed hfit houter).filterMap ?_
  intro first second inner hfirst hsecond
  rw [← ((hindexed.type?_eq_some_iff hfit).mp hfirst).2,
    ← ((hindexed.type?_eq_some_iff hfit).mp hsecond).2]

end ListsDeclared

theorem WellNested.listsDeclared (h : m.WellNested) : m.ListsDeclared := h.nested

/-!
## What a type lists
-/

theorem not_mem_members_type (type : TypeDefinition) : Entity.type type ∉ m.members := by
  simp [members]

/-- No token among the members that a type lists is one of a type. -/
theorem Indexed.table_ne_of_listed (h : m.Indexed) {type : TypeDefinition} (htype : type ∈ m.types)
    {token : Token} (hmem : token ∈ type.memberTokens) :
    token.table ≠ TableId.typeDef.number := by
  have hlists := h.lists type htype
  have hother {table : TableId} {count : Nat} (hne : table.number ≠ TableId.typeDef.number)
      (hnames : NamesRow table count token) : token.table ≠ TableId.typeDef.number := by
    rcases hnames with ⟨row, _, _, rfl⟩
    rwa [TableId.table_token]
  simp only [TypeDefinition.memberTokens, List.mem_append] at hmem
  rcases hmem with ((hfield | hproperty) | hevent) | hmethod
  · exact hother (by decide) (hlists.fields token hfield)
  · exact hother (by decide) (hlists.properties token hproperty)
  · exact hother (by decide) (hlists.events token hevent)
  · exact hother (by decide) (hlists.methods token hmethod)

/-- Every token among the members that a type lists is one of a member. -/
theorem Indexed.exists_member (h : m.Indexed) (hfit : m.RowsFit) {type : TypeDefinition}
    (htype : type ∈ m.types) {token : Token} (hmem : token ∈ type.memberTokens) :
    ∃ member ∈ m.members, m.entity? token = some member := by
  have hlists := h.lists type htype
  simp only [TypeDefinition.memberTokens, List.mem_append] at hmem
  rcases hmem with ((hfield | hproperty) | hevent) | hmethod
  · obtain ⟨field, hfield⟩ := h.fields.exists_byRow (hfit .field) (hlists.fields token hfield)
    have hrow := ((h.fields.byRow_eq_some_iff (hfit .field)).mp hfield).1
    exact ⟨.field field, by simp [members, hrow], entity?_eq_some.mpr hfield⟩
  · obtain ⟨property, hproperty⟩ :=
      h.properties.exists_byRow (hfit .property) (hlists.properties token hproperty)
    have hrow := ((h.properties.byRow_eq_some_iff (hfit .property)).mp hproperty).1
    exact ⟨.property property, by simp [members, hrow], entity?_eq_some.mpr hproperty⟩
  · obtain ⟨event, hevent⟩ := h.events.exists_byRow (hfit .event) (hlists.events token hevent)
    have hrow := ((h.events.byRow_eq_some_iff (hfit .event)).mp hevent).1
    exact ⟨.event event, by simp [members, hrow], entity?_eq_some.mpr hevent⟩
  · obtain ⟨method, hmethod⟩ :=
      h.methods.exists_byRow (hfit .methodDef) (hlists.methods token hmethod)
    have hrow := ((h.methods.byRow_eq_some_iff (hfit .methodDef)).mp hmethod).1
    exact ⟨.method method, by simp [members, hrow], entity?_eq_some.mpr hmethod⟩

namespace WellNested

variable (h : m.WellNested) (hindexed : m.Indexed) (hfit : m.RowsFit) {owner : TypeDefinition}
  (howner : owner ∈ m.types) {token : Token}

include h hindexed hfit howner

/-- The definitions that a type lists are declared in it. -/
theorem declaringType_of_listed (hmem : token ∈ owner.nestedTypes ++ owner.memberTokens)
    {entity : Entity} (hfound : m.entity? token = some entity) :
    entity.declaringType = some owner.token := by
  rcases List.mem_append.mp hmem with hnested | hmember
  · obtain ⟨inner, hinner⟩ := hindexed.types.exists_byRow (hfit .typeDef)
      ((hindexed.lists owner howner).nestedTypes token hnested)
    have hentity : m.entity? token = some (.type inner) := entity?_eq_some.mpr hinner
    rw [hfound] at hentity
    cases hentity
    have hinside : inner ∈ m.typesInside owner := List.mem_filterMap.mpr ⟨token, hnested, hinner⟩
    exact ((h.listsDeclared.mem_typesInside_iff hindexed (hfit .typeDef) howner).mp hinside).2
  · obtain ⟨member, hlisted, hentity⟩ := hindexed.exists_member hfit howner hmember
    rw [hfound] at hentity
    cases hentity
    have htoken := ((entity?_eq_some_iff hindexed hfit).mp hfound).2
    have hcount := List.count_pos_iff.mpr hmember
    rw [← htoken, h.members owner howner entity hlisted] at hcount
    by_contra hother
    rw [if_neg hother] at hcount
    exact Nat.lt_irrefl 0 hcount

theorem nodup_memberTokens : owner.memberTokens.Nodup := by
  rw [List.nodup_iff_count_le_one]
  intro token
  by_cases hmem : token ∈ owner.memberTokens
  · obtain ⟨member, hlisted, hentity⟩ := hindexed.exists_member hfit howner hmem
    rw [← ((entity?_eq_some_iff hindexed hfit).mp hentity).2, h.members owner howner member hlisted]
    split <;> decide
  · rw [List.count_eq_zero.mpr hmem]
    decide

/-- A type lists no definition twice. -/
theorem nodup_listed :
    ((owner.nestedTypes ++ owner.memberTokens).filterMap m.entity?).Nodup := by
  have htokens : (owner.nestedTypes ++ owner.memberTokens).Nodup := by
    refine List.nodup_append.mpr ⟨h.listsDeclared.nodup_nestedTypes hindexed (hfit .typeDef) howner,
      h.nodup_memberTokens hindexed hfit howner, ?_⟩
    rintro token hnested _ hmember rfl
    -- What is listed among the types is a type, and what is listed among the members is none.
    obtain ⟨inner, hinner⟩ := hindexed.types.exists_byRow (hfit .typeDef)
      ((hindexed.lists owner howner).nestedTypes token hnested)
    obtain ⟨member, hlisted, hentity⟩ := hindexed.exists_member hfit howner hmember
    have htype : m.entity? token = some (.type inner) := entity?_eq_some.mpr hinner
    rw [hentity] at htype
    cases htype
    exact not_mem_members_type inner hlisted
  refine htokens.filterMap fun first second entity hfirst hsecond => ?_
  rw [← ((entity?_eq_some_iff hindexed hfit).mp hfirst).2,
    ← ((entity?_eq_some_iff hindexed hfit).mp hsecond).2]

end WellNested

namespace Browsable

theorem type?_eq_some_iff (h : m.Browsable) {token : Token} {type : TypeDefinition} :
    m.type? token = some type ↔ type ∈ m.types ∧ type.token = token :=
  h.indexed.type?_eq_some_iff h.rowsFit

theorem type?_token (h : m.Browsable) {type : TypeDefinition} (hmem : type ∈ m.types) :
    m.type? type.token = some type :=
  h.indexed.type?_token h.rowsFit hmem

theorem token_injective (h : m.Browsable) {first second : TypeDefinition}
    (hfirst : first ∈ m.types) (hsecond : second ∈ m.types) (hsame : first.token = second.token) :
    first = second :=
  h.indexed.token_injective h.rowsFit hfirst hsecond hsame

theorem nodup_types (h : m.Browsable) : m.types.toList.Nodup := h.indexed.types.nodup h.rowsFit

theorem mem_typesInside_iff (h : m.Browsable) {outer inner : TypeDefinition}
    (houter : outer ∈ m.types) :
    inner ∈ m.typesInside outer ↔ inner ∈ m.types ∧ inner.declaringType = some outer.token :=
  h.wellNested.listsDeclared.mem_typesInside_iff h.indexed h.rowsFit houter

theorem nodup_typesInside (h : m.Browsable) {outer : TypeDefinition} (houter : outer ∈ m.types) :
    (m.typesInside outer).Nodup :=
  h.wellNested.listsDeclared.nodup_typesInside h.indexed h.rowsFit houter

end Browsable

/-!
## Depths
-/

/-- The types that are shown at a depth: the top-level types of all namespaces, then what they
list. -/
def typesAt (m : CodeModule) : (depth : Nat) → List TypeDefinition
  | 0 => m.topLevelTypes
  | depth + 1 => (m.typesAt depth).flatMap m.typesInside

namespace Browsable

/-- What stands inside a type is shown, and so is the type. -/
theorem shown_of_mem_typesInside (h : m.Browsable) {outer inner : TypeDefinition}
    (houter : outer ∈ m.types) (hinside : inner ∈ m.typesInside outer) :
    outer.name ≠ modulePseudoType ∧ inner.name ≠ modulePseudoType := by
  rcases (h.mem_typesInside_iff houter).mp hinside with ⟨hinner, hdeclared⟩
  constructor
  · intro hpseudo
    have hempty := (h.wellNested.pseudoType outer houter hpseudo).2.2
    simp [typesInside, hempty] at hinside
  · intro hpseudo
    rw [h.pseudoOnTop inner hinner hpseudo] at hdeclared
    cases hdeclared

theorem mem_typesAt_iff (h : m.Browsable) {depth : Nat} {type : TypeDefinition} :
    type ∈ m.typesAt depth ↔
      type ∈ m.types ∧ type.name ≠ modulePseudoType ∧ m.StandsAt depth type := by
  induction depth generalizing type with
  | zero =>
      rw [typesAt, mem_topLevelTypes]
      constructor
      · rintro ⟨hmem, htop, hname⟩
        exact ⟨hmem, hname, .top htop⟩
      · rintro ⟨hmem, hname, hstands⟩
        cases hstands with
        | top htop => exact ⟨hmem, htop, hname⟩
  | succ depth ih =>
      rw [typesAt, List.mem_flatMap]
      constructor
      · rintro ⟨outer, hlevel, hinside⟩
        rcases ih.mp hlevel with ⟨houter, _, hstands⟩
        rcases (h.mem_typesInside_iff houter).mp hinside with ⟨hmem, hdeclared⟩
        exact ⟨hmem, (h.shown_of_mem_typesInside houter hinside).2,
          .inside hdeclared (h.type?_token houter) hstands⟩
      · rintro ⟨hmem, _, hstands⟩
        cases hstands with
        | inside hdeclared hfound hdepth =>
            rcases h.type?_eq_some_iff.mp hfound with ⟨houter, rfl⟩
            have hinside := (h.mem_typesInside_iff houter).mpr ⟨hmem, hdeclared⟩
            have hshown := (h.shown_of_mem_typesInside houter hinside).1
            exact ⟨_, ih.mpr ⟨houter, hshown, hdepth⟩, hinside⟩

theorem nodup_typesAt (h : m.Browsable) (depth : Nat) : (m.typesAt depth).Nodup := by
  induction depth with
  | zero => exact h.nodup_types.filter _
  | succ depth ih =>
      have hrow {type : TypeDefinition} (hmem : type ∈ m.typesAt depth) : type ∈ m.types :=
        (h.mem_typesAt_iff.mp hmem).1
      refine nodup_flatMap_of_source ih (fun outer hmem => h.nodup_typesInside (hrow hmem)) ?_
      intro first hfirst second hsecond inner hinner hagain
      have hdeclared := ((h.mem_typesInside_iff (hrow hfirst)).mp hinner).2
      rw [((h.mem_typesInside_iff (hrow hsecond)).mp hagain).2] at hdeclared
      exact h.token_injective (hrow hfirst) (hrow hsecond) (Option.some.inj hdeclared).symm

/-- No type stands deeper than some bound. -/
theorem exists_bound (h : m.Browsable) :
    ∃ bound, ∀ type ∈ m.types, ∀ depth, m.StandsAt depth type → depth < bound := by
  rcases StandsAt.exists_bound m.types.toList
    fun type hmem => h.wellNested.ends type (Array.mem_toList_iff.mp hmem) with ⟨bound, hbound⟩
  exact ⟨bound, fun type hmem => hbound type (Array.mem_toList_iff.mpr hmem)⟩

/-- The types at all depths are the types of the module, but for the row for what belongs to no
type. -/
theorem typesAt_perm (h : m.Browsable) {bound : Nat}
    (hbound : ∀ type ∈ m.types, ∀ depth, m.StandsAt depth type → depth < bound) :
    ((List.range bound).flatMap m.typesAt).Perm
      (m.types.toList.filter fun type => type.name != modulePseudoType) := by
  have hnodup : ((List.range bound).flatMap m.typesAt).Nodup := by
    refine nodup_flatMap_of_source List.nodup_range (fun depth _ => h.nodup_typesAt depth) ?_
    intro first _ second _ type hfirst hsecond
    exact (h.mem_typesAt_iff.mp hfirst).2.2.unique (h.mem_typesAt_iff.mp hsecond).2.2
  rw [List.perm_ext_iff_of_nodup hnodup (h.nodup_types.filter _)]
  intro type
  simp only [List.mem_flatMap, List.mem_range, h.mem_typesAt_iff, List.mem_filter,
    Array.mem_toList_iff, bne_iff_ne]
  constructor
  · rintro ⟨depth, _, hmem, hname, _⟩
    exact ⟨hmem, hname⟩
  · rintro ⟨hmem, hname⟩
    rcases h.wellNested.ends type hmem with ⟨depth, hdepth⟩
    exact ⟨depth, hbound type hmem depth hdepth, hmem, hname, hdepth⟩

/-- The types of all namespaces are the top-level types. -/
theorem typesInNamespaces_perm (h : m.Browsable) :
    (m.namespaces.flatMap fun name => (m.typesInNamespace name).filterMap m.type?).Perm
      m.topLevelTypes := by
  have hfound {type : TypeDefinition} (hmem : type ∈ m.topLevelTypes) :
      m.type? type.token = some type :=
    h.type?_token (mem_topLevelTypes.mp hmem).1
  have hsame (name : String) : (m.typesInNamespace name).filterMap m.type? =
      m.topLevelTypes.filter (·.namespaceName == name) := by
    rw [typesInNamespace, List.filterMap_map]
    refine (List.filterMap_congr fun type hmem => ?_).trans List.filterMap_some
    exact hfound (List.mem_of_mem_filter hmem)
  simp only [hsame]
  have hnodup : m.topLevelTypes.Nodup := h.nodup_types.filter _
  rw [List.perm_ext_iff_of_nodup ?_ hnodup]
  · intro type
    simp only [List.mem_flatMap, List.mem_filter, beq_iff_eq]
    constructor
    · rintro ⟨_, _, hmem, _⟩
      exact hmem
    · intro hmem
      refine ⟨type.namespaceName, mem_namespaces_iff.mpr ?_, hmem, rfl⟩
      exact List.ne_nil_of_mem (mem_typesInNamespace_iff.mpr ⟨type, hmem, rfl, rfl⟩)
  · refine nodup_flatMap_of_source m.nodup_namespaces (fun _ _ => hnodup.filter _) ?_
    intro first _ second _ type hfirst hsecond
    simp only [List.mem_filter, beq_iff_eq] at hfirst hsecond
    rw [← hfirst.2, hsecond.2]

end Browsable
end CodeModule
end AssemblyBrowser
