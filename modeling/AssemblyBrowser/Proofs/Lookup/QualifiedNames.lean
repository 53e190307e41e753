import Mathlib.Data.List.Nodup
import Mathlib.Data.List.Perm.Subperm
import AssemblyBrowser.Proofs.TypeNesting

/-!
# Names agree across modules

A type has one full name, whoever spells it. The module that defines it walks
outwards over the types around it, and a module that refers to it walks outwards
over the references around its reference. Both walks are bounded by the number
of rows. That is enough for a chain that ends, since no row occurs in it twice.
-/

namespace AssemblyBrowser

/-!
## Dotted names
-/

/-- Names, outermost first, behind a namespace. -/
def dotted (namespaceName : String) (names : List String) : String :=
  let name := String.intercalate "." names
  if namespaceName.isEmpty then name else namespaceName ++ "." ++ name

theorem dotted_append {names : List String} (hne : names ≠ []) (namespaceName name : String) :
    dotted namespaceName (names ++ [name]) = dotted namespaceName names ++ "." ++ name := by
  unfold dotted
  rw [String.intercalate_append_of_ne_nil hne (List.cons_ne_nil name []),
    String.intercalate_singleton]
  dsimp only
  split
  case isTrue => rfl
  case isFalse => simp only [String.append_assoc]

/-- Names that are not empty make a dotted name that is not empty. -/
theorem dotted_ne_empty {names : List String} (hne : names ≠ []) (h : ∀ name ∈ names, name ≠ "")
    (namespaceName : String) : dotted namespaceName names ≠ "" := by
  cases names with
  | nil => exact absurd rfl hne
  | cons first rest =>
      have hfirst : first ≠ "" := h first List.mem_cons_self
      have hjoined : String.intercalate "." (first :: rest) ≠ "" := by
        cases rest with
        | nil =>
            rw [String.intercalate_singleton]
            exact hfirst
        | cons next others =>
            rw [String.intercalate_cons_cons]
            simp [hfirst]
      unfold dotted
      dsimp only
      split
      case isTrue => exact hjoined
      case isFalse => simp [hjoined]

/-- A type is named behind the dotted name of the type around it, or behind its namespace. -/
theorem TypeName.fullName_eq_dotted {names : List String} {namespaceName : String}
    (h : ∀ name ∈ names, name ≠ "") {type : TypeName}
    (htype : type.namespaceName =
      if names = [] then namespaceName else dotted namespaceName names) :
    type.fullName = dotted namespaceName (names ++ [type.name]) := by
  unfold fullName
  rw [htype]
  split
  case isTrue hnone =>
    rw [hnone, List.nil_append, dotted, String.intercalate_singleton]
  case isFalse hne =>
    have hqualifier : ¬ (dotted namespaceName names).isEmpty = true := by
      simpa using dotted_ne_empty hne h namespaceName
    rw [if_neg hqualifier, dotted_append hne]

/-!
## Rows around a row
-/

/-- The rows around a row, from the inside outwards. -/
inductive Surrounded (outer : Nat → Option Nat) : (row : Nat) → List Nat → Prop
  | outermost {row : Nat} (h : outer row = none) : Surrounded outer row []
  | inside {row next : Nat} {around : List Nat} (h : outer row = some next)
      (hnext : Surrounded outer next around) : Surrounded outer row (next :: around)

namespace Surrounded

variable {outer : Nat → Option Nat} {row : Nat} {around : List Nat}

theorem unique (h : Surrounded outer row around) {others : List Nat}
    (hothers : Surrounded outer row others) : around = others := by
  induction h generalizing others with
  | outermost hnone =>
      cases hothers with
      | outermost => rfl
      | inside hsome => rw [hnone] at hsome; cases hsome
  | inside hnext _ ih =>
      cases hothers with
      | outermost hnone => rw [hnone] at hnext; cases hnext
      | inside hother hrest =>
          cases Option.some.inj (hnext.symm.trans hother)
          rw [ih hrest]

theorem exists_shorter (h : Surrounded outer row around) {other : Nat} (hmem : other ∈ around) :
    ∃ rest, Surrounded outer other rest ∧ rest.length < around.length := by
  induction h with
  | outermost => cases hmem
  | inside _ hnext ih =>
      rcases List.mem_cons.mp hmem with rfl | hrest
      · exact ⟨_, hnext, Nat.lt_succ_self _⟩
      · rcases ih hrest with ⟨rest, hsurrounded, hlt⟩
        exact ⟨rest, hsurrounded, Nat.lt_succ_of_lt hlt⟩

theorem not_mem (h : Surrounded outer row around) : row ∉ around := by
  intro hmem
  rcases h.exists_shorter hmem with ⟨rest, hrest, hlt⟩
  rw [h.unique hrest] at hlt
  exact Nat.lt_irrefl _ hlt

theorem nodup (h : Surrounded outer row around) : (row :: around).Nodup := by
  induction h with
  | outermost => exact List.nodup_singleton _
  | inside hnext hrest ih =>
      exact List.nodup_cons.mpr ⟨(Surrounded.inside hnext hrest).not_mem, ih⟩

/-- There are no more rows in a chain than in the table. -/
theorem length_lt (h : Surrounded outer row around) {count : Nat}
    (hrows : ∀ other ∈ row :: around, 1 ≤ other ∧ other ≤ count) : around.length < count := by
  have hsubset : row :: around ⊆ List.range' 1 count := by
    intro other hmem
    have hbounds := hrows other hmem
    rw [List.mem_range'_1]
    omega
  have hle := (h.nodup.subperm hsubset).length_le
  rwa [List.length_cons, List.length_range'] at hle

end Surrounded

/-!
## References
-/

namespace ImageMetadata

variable {metadata : ImageMetadata} {namespaceName : String} {row : Nat} {names : List String}

/-- A type reference and the references around it have these names, outermost first; behind them
all stands the namespace of the outermost one. -/
inductive ReferenceSpells (metadata : ImageMetadata) (namespaceName : String) :
    (row : Nat) → (names : List String) → Prop
  | outermost {row : Nat} {reference : RawTypeReference}
      (hrow : 1 ≤ row ∧ row ≤ metadata.tables.rows .typeRef)
      (hread : metadata.rawTypeReference row = .ok reference)
      (hscope : reference.scope.table = TableId.typeRef.number → reference.scope.isNull)
      (hnamespace : reference.namespaceName = namespaceName) :
      ReferenceSpells metadata namespaceName row [reference.name]
  | nested {row : Nat} {reference : RawTypeReference} {names : List String}
      (hrow : 1 ≤ row ∧ row ≤ metadata.tables.rows .typeRef)
      (hread : metadata.rawTypeReference row = .ok reference)
      (hscope : reference.scope.table = TableId.typeRef.number)
      (houter : ReferenceSpells metadata namespaceName reference.scope.row names) :
      ReferenceSpells metadata namespaceName row (names ++ [reference.name])

/-- The row of the reference around a reference, if there is one. -/
def outerReference? (metadata : ImageMetadata) (row : Nat) : Option Nat :=
  match metadata.rawTypeReference row with
  | .ok reference =>
      if reference.scope.table = TableId.typeRef.number ∧ ¬ reference.scope.isNull then
        some reference.scope.row
      else none
  | .error _ => none

theorem ReferenceSpells.row_bounds (h : metadata.ReferenceSpells namespaceName row names) :
    1 ≤ row ∧ row ≤ metadata.tables.rows .typeRef := by
  cases h with
  | outermost hrow => exact hrow
  | nested hrow => exact hrow

theorem ReferenceSpells.surrounded (h : metadata.ReferenceSpells namespaceName row names) :
    ∃ around, Surrounded metadata.outerReference? row around ∧
      names.length = around.length + 1 ∧
      ∀ other ∈ row :: around, 1 ≤ other ∧ other ≤ metadata.tables.rows .typeRef := by
  induction h with
  | outermost hrow hread hscope =>
      refine ⟨[], .outermost ?_, rfl, fun other hmem => ?_⟩
      · unfold outerReference?
        rw [hread]
        exact if_neg fun hnested => hnested.2 (hscope hnested.1)
      · rwa [List.mem_singleton.mp hmem]
  | @nested row reference names hrow hread hscope houter ih =>
      rcases ih with ⟨around, hsurrounded, hlength, hbounds⟩
      have hnotnull : ¬ reference.scope.isNull = true := by
        have hpositive := houter.row_bounds.1
        simp only [Token.isNull, beq_iff_eq]
        omega
      refine ⟨reference.scope.row :: around, .inside ?_ hsurrounded, ?_, ?_⟩
      · unfold outerReference?
        rw [hread]
        exact if_pos ⟨hscope, hnotnull⟩
      · rw [List.length_append, hlength]
        rfl
      · exact List.forall_mem_cons.mpr ⟨hrow, hbounds⟩

/-- The chain of the scopes around a reference, followed far enough, spells the names around it. -/
theorem ReferenceSpells.scopeChain (h : metadata.ReferenceSpells namespaceName row names)
    {raw : Array RawTypeReference}
    (hraw : ∀ row, 1 ≤ row → row ≤ metadata.tables.rows .typeRef →
      ∃ reference, raw[row - 1]? = some reference ∧ metadata.rawTypeReference row = .ok reference)
    {reference : RawTypeReference} (hread : metadata.rawTypeReference row = .ok reference)
    {fuel : Nat} (hfuel : names.length ≤ fuel) :
    ∃ outer stop, ImageMetadata.scopeChain raw fuel reference.scope = (outer, stop) ∧
      outer.reverse.map RawTypeReference.name ++ [reference.name] = names ∧
      (outer.getLast?.map RawTypeReference.namespaceName).getD reference.namespaceName =
        namespaceName := by
  induction h generalizing reference fuel with
  | @outermost row other hrow hother hscope hnamespace =>
      obtain rfl : reference = other := Except.ok.inj (hread.symm.trans hother)
      cases fuel with
      | zero => cases hfuel
      | succ fuel =>
          refine ⟨[], some reference.scope, ?_, rfl, hnamespace⟩
          rw [ImageMetadata.scopeChain, if_neg fun hnested => hnested.2 (hscope hnested.1)]
  | @nested row other names hrow hother hscope houter ih =>
      obtain rfl : reference = other := Except.ok.inj (hread.symm.trans hother)
      have hbounds := houter.row_bounds
      rcases hraw _ hbounds.1 hbounds.2 with ⟨around, hat, haround⟩
      rw [List.length_append, List.length_singleton] at hfuel
      cases fuel with
      | zero => omega
      | succ fuel =>
          have hnotzero : reference.scope.row ≠ 0 := by omega
          have hnotnull : ¬ reference.scope.isNull = true := by
            simpa [Token.isNull] using hnotzero
          have hrowOf : TypeScope.rowOf? raw reference.scope = some around := by
            rw [TypeScope.rowOf?, if_neg hnotzero, hat]
          have hrest : names.length ≤ fuel := by omega
          rcases ih haround hrest with ⟨outer, stop, hchain, hnames, hnamespace⟩
          refine ⟨around :: outer, stop, ?_, ?_, ?_⟩
          · rw [ImageMetadata.scopeChain, if_pos ⟨hscope, hnotnull⟩, hrowOf]
            dsimp only
            rw [hchain]
          · rw [List.reverse_cons, List.map_append, List.map_singleton, hnames]
          · rw [List.getLast?_cons, Option.map_some, Option.getD_some, ← hnamespace]
            cases outer.getLast? with
            | none => rfl
            | some _ => rfl

/-- What the references of a module are read as. -/
theorem typeReferences_ok {references : Array AssemblyReference} {typeNames : Array TypeName}
    (h : metadata.typeReferences references = .ok typeNames) :
    ∃ raw : Array RawTypeReference, raw.size = metadata.tables.rows .typeRef ∧
      (∀ row, 1 ≤ row → row ≤ metadata.tables.rows .typeRef →
        ∃ reference, raw[row - 1]? = some reference ∧
          metadata.rawTypeReference row = .ok reference) ∧
      ∀ (index : Nat) reference, raw[index]? = some reference →
        ∃ typeName, typeNames[index]? = some typeName ∧
          typeReferenceName references raw reference index = .ok typeName := by
  unfold typeReferences at h
  rcases Outcome.bind_eq_ok.mp h with ⟨raw, hraw, hnames⟩
  rcases Outcome.bind_eq_ok.mp hnames with ⟨named, hnamed, hpure⟩
  rcases mapM_rows hraw with ⟨hlength, hrows⟩
  refine ⟨raw.toArray, by rw [List.size_toArray, hlength], ?_, ?_⟩
  · intro row hone hle
    have hlt : row - 1 < raw.length := by omega
    refine ⟨raw[row - 1], by simp [hlt], ?_⟩
    have hread := hrows (row - 1) hlt
    rwa [Nat.sub_add_cancel hone] at hread
  · intro index reference hat
    rw [List.getElem?_toArray] at hat
    have hzip : raw.zipIdx[index]? = some (reference, index) := by simp [hat]
    obtain ⟨typeName, hfound, hname⟩ := Outcome.exists_getElem?_of_mapM hnamed hzip
    refine ⟨typeName, ?_, hname⟩
    rw [← Outcome.pure_eq_ok.mp hpure, List.getElem?_toArray]
    exact hfound

/-- A reference is named as its chain spells. -/
theorem ReferenceSpells.fullName (h : metadata.ReferenceSpells namespaceName row names)
    (hnames : ∀ name ∈ names, name ≠ "") {references : Array AssemblyReference}
    {typeNames : Array TypeName} (hread : metadata.typeReferences references = .ok typeNames) :
    ∃ typeName, typeNames[row - 1]? = some typeName ∧
      typeName.fullName = dotted namespaceName names := by
  rcases typeReferences_ok hread with ⟨raw, hsize, hraw, hnamed⟩
  have hbounds := h.row_bounds
  rcases hraw row hbounds.1 hbounds.2 with ⟨reference, hat, hreference⟩
  rcases hnamed (row - 1) reference hat with ⟨typeName, htypeName, hname⟩
  refine ⟨typeName, htypeName, ?_⟩
  have hfuel : names.length ≤ raw.size + 1 := by
    rcases h.surrounded with ⟨around, hsurrounded, hlength, hrows⟩
    have hlt := hsurrounded.length_lt hrows
    omega
  rcases h.scopeChain hraw hreference hfuel with ⟨outer, stop, hchain, hspelled, hnamespace⟩
  unfold typeReferenceName at hname
  rw [hchain] at hname
  rcases Outcome.bind_eq_ok.mp hname with ⟨number, _, hpure⟩
  have hresult := Outcome.pure_eq_ok.mp hpure
  rw [hnamespace] at hresult
  have hqualifier : typeName.namespaceName =
      if outer.reverse.map RawTypeReference.name = [] then namespaceName
      else dotted namespaceName (outer.reverse.map RawTypeReference.name) := by
    rw [← hresult]
    cases outer with
    | nil => rfl
    | cons first rest => simp [dotted]
  have hinner : typeName.name = reference.name := by rw [← hresult]
  have houter : ∀ name ∈ outer.reverse.map RawTypeReference.name, name ≠ "" := by
    intro name hmem
    refine hnames name ?_
    rw [← hspelled]
    exact List.mem_append_left _ hmem
  rw [TypeName.fullName_eq_dotted houter hqualifier, hinner, hspelled]

/-!
## Definitions
-/

/-- A type and the types around it have these names, outermost first; the outermost one stands in
the namespace. What namespaces the other rows hold does not matter. -/
inductive DefinitionSpells (metadata : ImageMetadata) (nesting : List (Nat × Nat))
    (namespaceName : String) : Token → (names : List String) → Prop
  | outermost {token : Token} {name : String} (htable : token.table = TableId.typeDef.number)
      (hrow : 1 ≤ token.row ∧ token.row ≤ metadata.tables.rows .typeDef)
      (hname : metadata.string .typeDef token.row 1 = .ok name)
      (hnamespace : metadata.string .typeDef token.row 2 = .ok namespaceName)
      (houtermost : nesting.reverse.lookup token.row = none) :
      DefinitionSpells metadata nesting namespaceName token [name]
  | nested {token : Token} {outer : Nat} {name : String} {names : List String}
      (htable : token.table = TableId.typeDef.number)
      (hrow : 1 ≤ token.row ∧ token.row ≤ metadata.tables.rows .typeDef)
      (hname : metadata.string .typeDef token.row 1 = .ok name)
      (hnested : nesting.reverse.lookup token.row = some outer)
      (houter :
        DefinitionSpells metadata nesting namespaceName (TableId.typeDef.token outer) names) :
      DefinitionSpells metadata nesting namespaceName token (names ++ [name])

variable {nesting : List (Nat × Nat)} {token : Token}

theorem DefinitionSpells.table
    (h : metadata.DefinitionSpells nesting namespaceName token names) :
    token.table = TableId.typeDef.number := by
  cases h with
  | outermost htable => exact htable
  | nested htable => exact htable

theorem DefinitionSpells.row_bounds
    (h : metadata.DefinitionSpells nesting namespaceName token names) :
    1 ≤ token.row ∧ token.row ≤ metadata.tables.rows .typeDef := by
  cases h with
  | outermost _ hrow => exact hrow
  | nested _ hrow => exact hrow

theorem DefinitionSpells.names_ne_nil
    (h : metadata.DefinitionSpells nesting namespaceName token names) : names ≠ [] := by
  cases h <;> simp

/-- The row around a row. -/
def outerRow? (nesting : List (Nat × Nat)) (row : Nat) : Option Nat :=
  (nesting.reverse.lookup row).map fun outer => (TableId.typeDef.token outer).row

theorem DefinitionSpells.surrounded
    (h : metadata.DefinitionSpells nesting namespaceName token names) :
    ∃ around, Surrounded (outerRow? nesting) token.row around ∧
      names.length = around.length + 1 ∧
      ∀ other ∈ token.row :: around, 1 ≤ other ∧ other ≤ metadata.tables.rows .typeDef := by
  induction h with
  | outermost _ hrow _ _ houtermost =>
      refine ⟨[], .outermost ?_, rfl, fun other hmem => ?_⟩
      · rw [outerRow?, houtermost, Option.map_none]
      · rwa [List.mem_singleton.mp hmem]
  | nested _ hrow _ hnested _ ih =>
      rcases ih with ⟨around, hsurrounded, hlength, hbounds⟩
      refine ⟨_ :: around, .inside ?_ hsurrounded, ?_, ?_⟩
      · rw [outerRow?, hnested, Option.map_some]
      · rw [List.length_append, hlength]
        rfl
      · exact List.forall_mem_cons.mpr ⟨hrow, hbounds⟩

theorem DefinitionSpells.length_le
    (h : metadata.DefinitionSpells nesting namespaceName token names) :
    names.length ≤ metadata.tables.rows .typeDef := by
  rcases h.surrounded with ⟨around, hsurrounded, hlength, hrows⟩
  have hlt := hsurrounded.length_lt hrows
  omega

/-- What of a type's row decides how it is named. -/
structure NamesRowOf (metadata : ImageMetadata) (nesting : List (Nat × Nat)) (row : Nat)
    (type : TypeDefinition) : Prop where
  token : type.token = TableId.typeDef.token row
  name : metadata.string .typeDef row 1 = .ok type.name
  declaringType : type.declaringType = (nesting.reverse.lookup row).map TableId.typeDef.token

theorem typeSkeleton_named {generics : List GenericParameterRow} {type : TypeDefinition}
    (h : metadata.typeSkeleton nesting generics row = .ok type) :
    metadata.NamesRowOf nesting row type ∧
      metadata.string .typeDef row 2 = .ok type.namespaceName := by
  unfold typeSkeleton at h
  rcases Outcome.bind_eq_ok.mp h with ⟨fields, _, hmethods⟩
  rcases Outcome.bind_eq_ok.mp hmethods with ⟨methods, _, hnamespace⟩
  rcases Outcome.bind_eq_ok.mp hnamespace with ⟨read, hread, hname⟩
  rcases Outcome.bind_eq_ok.mp hname with ⟨name, hnameRead, hflags⟩
  rcases Outcome.bind_eq_ok.mp hflags with ⟨flags, _, hpure⟩
  rw [← Outcome.pure_eq_ok.mp hpure]
  exact ⟨⟨rfl, hnameRead, rfl⟩, hread⟩

/-- The types as they are before they are linked: each has the names of its row, and the namespace
that the row holds. -/
def NamedByRows (metadata : ImageMetadata) (nesting : List (Nat × Nat))
    (types : Array TypeDefinition) : Prop :=
  ∀ row, 1 ≤ row → row ≤ metadata.tables.rows .typeDef →
    ∃ type, types[row - 1]? = some type ∧ metadata.NamesRowOf nesting row type ∧
      metadata.string .typeDef row 2 = .ok type.namespaceName

theorem rowOf?_eq {types : Array TypeDefinition} (hone : 1 ≤ token.row) :
    TypeScope.rowOf? types token = types[token.row - 1]? := by
  rw [TypeScope.rowOf?, if_neg (by omega)]

/-- The walk outwards over types that have not been linked ends at the namespace of the outermost
one. -/
theorem DefinitionSpells.outermostNamespace?
    (h : metadata.DefinitionSpells nesting namespaceName token names)
    {types : Array TypeDefinition} (htypes : metadata.NamedByRows nesting types) {fuel : Nat}
    (hfuel : names.length ≤ fuel) :
    ImageMetadata.outermostNamespace? types fuel token = some namespaceName := by
  induction h generalizing fuel with
  | outermost _ hrow _ hnamespace houtermost =>
      rcases htypes _ hrow.1 hrow.2 with ⟨type, hat, hnamed, hread⟩
      cases fuel with
      | zero => cases hfuel
      | succ fuel =>
          rw [ImageMetadata.outermostNamespace?, rowOf?_eq hrow.1, hat]
          dsimp only
          rw [hnamed.declaringType, houtermost]
          exact congrArg some (Except.ok.inj (hread.symm.trans hnamespace))
  | nested _ hrow _ hnested _ ih =>
      rcases htypes _ hrow.1 hrow.2 with ⟨type, hat, hnamed, _⟩
      rw [List.length_append, List.length_singleton] at hfuel
      cases fuel with
      | zero => omega
      | succ fuel =>
          rw [ImageMetadata.outermostNamespace?, rowOf?_eq hrow.1, hat]
          dsimp only
          rw [hnamed.declaringType, hnested]
          exact ih (by omega)

/-- A type that has been linked stands in the namespace of the outermost type around it. -/
theorem DefinitionSpells.linked (h : metadata.DefinitionSpells nesting namespaceName token names)
    {types : Array TypeDefinition} (htypes : metadata.NamedByRows nesting types)
    (hsize : types.size = metadata.tables.rows .typeDef) :
    ∃ type, (linkNesting types)[token.row - 1]? = some type ∧
      metadata.NamesRowOf nesting token.row type ∧ type.namespaceName = namespaceName := by
  have hbounds := h.row_bounds
  have hlength := h.length_le
  rcases htypes token.row hbounds.1 hbounds.2 with ⟨type, hat, hnamed, hread⟩
  unfold linkNesting
  rw [Array.getElem?_mapIdx, hat]
  refine ⟨_, rfl, ⟨hnamed.token, hnamed.name, hnamed.declaringType⟩, ?_⟩
  dsimp only
  rw [hnamed.declaringType]
  cases h with
  | outermost _ _ _ hnamespace houtermost =>
      rw [houtermost]
      exact Except.ok.inj (hread.symm.trans hnamespace)
  | nested _ _ _ hnested houter =>
      rw [List.length_append, List.length_singleton] at hlength
      rw [hnested, Option.map_some]
      dsimp only
      rw [houter.outermostNamespace? htypes (by omega), Option.getD_some]

/-- In a module that has been loaded, the types of a chain stand in the namespace of the outermost
one. -/
theorem DefinitionSpells.loaded (h : metadata.DefinitionSpells nesting namespaceName token names)
    {fileName : String} {m : CodeModule} (hmodule : metadata.toModule fileName = .ok m)
    (hnesting : metadata.nesting = .ok nesting) :
    ∃ type, m.type? token = some type ∧ metadata.NamesRowOf nesting token.row type ∧
      type.namespaceName = namespaceName := by
  have hrow := h.row_bounds.1
  rcases toModule_skeletons hmodule with ⟨types, hskeletons, _, hsame⟩
  rcases typeSkeletons_ok hskeletons with ⟨read, generics, unlinked, hread, _, hunlinked, rfl⟩
  obtain rfl : read = nesting := Except.ok.inj (hread.symm.trans hnesting)
  rcases mapM_rows hunlinked with ⟨hlength, hrows⟩
  have htypes : metadata.NamedByRows read unlinked.toArray := by
    intro row hone hle
    have hlt : row - 1 < unlinked.length := by omega
    have hrow := hrows (row - 1) hlt
    rw [Nat.sub_add_cancel hone] at hrow
    exact ⟨unlinked[row - 1], by simp [hlt], typeSkeleton_named hrow⟩
  rcases h.linked htypes (by rw [List.size_toArray, hlength]) with ⟨type, hat, hnamed, hspace⟩
  have hskeleton : m.skeletons[token.row - 1]? = some type.skeleton := by
    rw [hsame, Array.getElem?_map, hat]
    rfl
  rw [CodeModule.skeletons, Array.getElem?_map] at hskeleton
  rcases Option.map_eq_some_iff.mp hskeleton with ⟨loaded, hloaded, heq⟩
  refine ⟨loaded, CodeModule.type?_eq_some.mpr ⟨h.table, by omega, hloaded⟩, ⟨?_, ?_, ?_⟩, ?_⟩
  · exact (congrArg TypeDefinition.token heq).trans hnamed.token
  · rw [hnamed.name]
    exact congrArg Except.ok (congrArg TypeDefinition.name heq).symm
  · exact (congrArg TypeDefinition.declaringType heq).trans hnamed.declaringType
  · exact (congrArg TypeDefinition.namespaceName heq).trans hspace

end ImageMetadata

namespace CodeModule

open ImageMetadata (DefinitionSpells ReferenceSpells NamesRowOf)

variable {metadata : ImageMetadata} {nesting : List (Nat × Nat)} {m : CodeModule}
  {fileName namespaceName : String} {token : Token} {names : List String}

theorem enclosingChain_none (m : CodeModule) (fuel : Nat) : m.enclosingChain fuel none = [] := by
  cases fuel <;> rfl

/-- The walk outwards over the types of a module, followed far enough, spells the names of a
chain. -/
theorem enclosingChain_of_spells (h : metadata.DefinitionSpells nesting namespaceName token names)
    (hmodule : metadata.toModule fileName = .ok m) (hnesting : metadata.nesting = .ok nesting)
    {fuel : Nat} (hfuel : names.length ≤ fuel) :
    (m.enclosingChain fuel (some token)).reverse.map TypeDefinition.name = names ∧
      ((m.enclosingChain fuel (some token)).getLast?.map TypeDefinition.namespaceName).getD "" =
        namespaceName := by
  have hloaded := h.loaded hmodule hnesting
  induction h generalizing fuel with
  | outermost _ _ hname _ houtermost =>
      rcases hloaded with ⟨type, htype, hnamed, hspace⟩
      cases fuel with
      | zero => cases hfuel
      | succ fuel =>
          rw [enclosingChain, Option.bind_some, htype]
          dsimp only
          rw [hnamed.declaringType, houtermost, Option.map_none, enclosingChain_none]
          have hsame := Except.ok.inj (hnamed.name.symm.trans hname)
          exact ⟨congrArg (fun name => [name]) hsame, hspace⟩
  | @nested token outer name names _ _ hname hnested houter ih =>
      rcases hloaded with ⟨type, htype, hnamed, _⟩
      rw [List.length_append, List.length_singleton] at hfuel
      cases fuel with
      | zero => omega
      | succ fuel =>
          have hrest : names.length ≤ fuel := by omega
          rcases ih hrest (houter.loaded hmodule hnesting) with ⟨hnames, hnamespace⟩
          rw [enclosingChain, Option.bind_some, htype]
          dsimp only
          rw [hnamed.declaringType, hnested, Option.map_some]
          constructor
          · rw [List.reverse_cons, List.map_append, hnames, List.map_singleton,
              Except.ok.inj (hnamed.name.symm.trans hname)]
          · rw [List.getLast?_cons, Option.map_some, Option.getD_some, ← hnamespace]
            cases hlast : (m.enclosingChain fuel (some (TableId.typeDef.token outer))).getLast? with
            | some last => rfl
            | none =>
                rw [List.getLast?_eq_none_iff.mp hlast] at hnames
                exact absurd hnames.symm houter.names_ne_nil

theorem size_types (hmodule : metadata.toModule fileName = .ok m) :
    m.types.size = metadata.tables.rows .typeDef := by
  rcases ImageMetadata.toModule_skeletons hmodule with ⟨types, _, hsize, hsame⟩
  have hsizes := congrArg Array.size hsame
  rwa [skeletons, Array.size_map, Array.size_map, hsize] at hsizes

theorem fullName_of_spells (h : metadata.DefinitionSpells nesting namespaceName token names)
    (hmodule : metadata.toModule fileName = .ok m) (hnesting : metadata.nesting = .ok nesting) :
    m.fullName token = dotted namespaceName names := by
  have hlength : names.length ≤ m.types.size + 1 := by
    rw [size_types hmodule]
    exact Nat.le_succ_of_le h.length_le
  obtain ⟨hnames, hnamespace⟩ := enclosingChain_of_spells h hmodule hnesting hlength
  unfold fullName qualifiedName enclosingTypes
  dsimp only
  rw [hnames, hnamespace]
  rfl

/-- The name by which signatures refer to a type is spelled like its chain. -/
theorem typeName?_of_spells (h : metadata.DefinitionSpells nesting namespaceName token names)
    (hnames : ∀ name ∈ names, name ≠ "") (hmodule : metadata.toModule fileName = .ok m)
    (hnesting : metadata.nesting = .ok nesting) :
    ∃ typeName, m.typeName? token = some typeName ∧
      typeName.fullName = dotted namespaceName names := by
  rcases h.loaded hmodule hnesting with ⟨type, htype, hnamed, hspace⟩
  unfold typeName?
  rw [htype]
  refine ⟨_, rfl, ?_⟩
  cases h with
  | outermost _ _ hname _ houtermost =>
      obtain rfl := Except.ok.inj (hnamed.name.symm.trans hname)
      have hnone : ∀ name ∈ ([] : List String), name ≠ "" := fun _ h => absurd h List.not_mem_nil
      refine TypeName.fullName_eq_dotted hnone ?_
      dsimp only
      rw [hnamed.declaringType, houtermost]
      exact hspace
  | @nested _ outer name names _ _ hname hnested houter =>
      obtain rfl := Except.ok.inj (hnamed.name.symm.trans hname)
      have houterNames : ∀ name ∈ names, name ≠ "" :=
        fun name hmem => hnames name (List.mem_append_left _ hmem)
      refine TypeName.fullName_eq_dotted houterNames ?_
      dsimp only
      rw [hnamed.declaringType, hnested, Option.map_some, if_neg houter.names_ne_nil]
      exact fullName_of_spells houter hmodule hnesting

/-- A search for a full name that no other type has finds the type. -/
theorem findType?_of_unique {index : Nat} {type : TypeDefinition}
    (hat : m.types[index]? = some type) {wanted : String} (hname : m.fullName type.token = wanted)
    (hunique : ∀ (other : Nat) otherType, m.types[other]? = some otherType →
      m.fullName otherType.token = wanted → other = index) :
    m.findType? wanted = some type := by
  have hmem : type ∈ m.types.toList.reverse := by
    simpa using Array.mem_of_getElem? hat
  unfold findType?
  cases hfind : m.types.toList.reverse.find? fun type => m.fullName type.token == wanted with
  | none =>
      have hnone := List.find?_eq_none.mp hfind type hmem
      simp [hname] at hnone
  | some found =>
      have hfound : m.fullName found.token = wanted := by simpa using List.find?_some hfind
      have hmemFound : found ∈ m.types := by simpa using List.mem_of_find?_eq_some hfind
      rcases Array.mem_iff_getElem?.mp hmemFound with ⟨other, hother⟩
      rw [hunique other found hother hfound, hat] at hother
      exact hother.symm

/-- A chain of nested types has one full name: the one under which a module refers to it, the one
of its signatures, and the one of the module that defines it, which also finds it by that name if no
other type there has it. -/
theorem names_agree {refs defs : ImageMetadata} {references : Array AssemblyReference}
    {typeNames : Array TypeName} (hrefs : refs.typeReferences references = .ok typeNames)
    (hmodule : defs.toModule fileName = .ok m) (hnesting : defs.nesting = .ok nesting)
    (hnames : ∀ name ∈ names, name ≠ "") {reference : Nat} {definition : Token}
    (hreference : refs.ReferenceSpells namespaceName reference names)
    (hdefinition : defs.DefinitionSpells nesting namespaceName definition names) :
    ∃ referred defined type, typeNames[reference - 1]? = some referred ∧
      m.typeName? definition = some defined ∧ m.type? definition = some type ∧
      referred.fullName = m.fullName definition ∧ defined.fullName = m.fullName definition ∧
      m.fullName definition = dotted namespaceName names ∧
      ((∀ (index : Nat) other, m.types[index]? = some other →
          m.fullName other.token = referred.fullName → index + 1 = definition.row) →
        m.findType? referred.fullName = some type) := by
  rcases hreference.fullName hnames hrefs with ⟨referred, hreferred, hreferredName⟩
  rcases typeName?_of_spells hdefinition hnames hmodule hnesting with
    ⟨defined, hdefined, hdefinedName⟩
  rcases hdefinition.loaded hmodule hnesting with ⟨type, htype, hnamed, _⟩
  have hfull := fullName_of_spells hdefinition hmodule hnesting
  have htoken : type.token = definition := by
    rw [hnamed.token, TableId.token, ← hdefinition.table, Token.ofParts_table_row]
  refine ⟨referred, defined, type, hreferred, hdefined, htype, hreferredName.trans hfull.symm,
    hdefinedName.trans hfull.symm, hfull, fun hunique => ?_⟩
  refine findType?_of_unique (type?_eq_some.mp htype).2.2 ?_ ?_
  · rw [htoken, hreferredName, hfull]
  · intro index other hother hsame
    have hindex := hunique index other hother hsame
    omega

/-- A type `N.Outer` in the second row and a type inside it in the first, and references to both in
the same order. The row of the inner type holds the namespace of another one. -/
def nestedTables : List UInt8 :=
  Bytes.ofLittleEndian 4 0 ++ [2, 0, 0, 1]
    ++ Bytes.ofLittleEndian 8
      (Nat.pow 2 TableId.typeRef.number + Nat.pow 2 TableId.typeDef.number
        + Nat.pow 2 TableId.nestedClass.number)
    ++ Bytes.ofLittleEndian 8 0 ++ Bytes.ofLittleEndian 4 2 ++ Bytes.ofLittleEndian 4 2
    ++ Bytes.ofLittleEndian 4 1
    ++ [11, 0, 9, 0, 0, 0] ++ [6, 0, 3, 0, 1, 0]
    ++ [0, 0, 0, 0, 9, 0, 3, 0, 0, 0, 1, 0, 1, 0] ++ [0, 0, 0, 0, 3, 0, 1, 0, 0, 0, 1, 0, 1, 0]
    ++ [1, 0, 2, 0]

def nestedMetadata : Except Error ImageMetadata := do
  return {
    tables := ← TableStream.decode nestedTables.toArray
    strings := #[0, 0x4E, 0, 0x4F, 0x75, 0x74, 0x65, 0x72, 0, 0x49, 0x6E, 0x6E, 0x65, 0x72, 0]
    blobs := #[]
    guids := #[]
    runtimeVersion := ""
    entryPoint := none
    image := { data := #[], sections := [], runtimeHeader := { rva := 0, size := 0 } }
    resourcesBase := none }

theorem names_agree_nested :
    ∃ metadata typeNames nesting m, nestedMetadata = .ok metadata ∧
      metadata.typeReferences #[] = .ok typeNames ∧ metadata.toModule "" = .ok m ∧
      metadata.nesting = .ok nesting ∧ (∀ name ∈ ["Outer", "Inner"], name ≠ "") ∧
      metadata.ReferenceSpells "N" 1 ["Outer", "Inner"] ∧
      metadata.DefinitionSpells nesting "N" (TableId.typeDef.token 1) ["Outer", "Inner"] ∧
      ∃ referred defined type, typeNames[0]? = some referred ∧
        m.typeName? (TableId.typeDef.token 1) = some defined ∧
        m.type? (TableId.typeDef.token 1) = some type ∧
        referred.fullName = m.fullName (TableId.typeDef.token 1) ∧
        defined.fullName = m.fullName (TableId.typeDef.token 1) ∧
        m.fullName (TableId.typeDef.token 1) = "N.Outer.Inner" ∧
        ((∀ (index : Nat) other, m.types[index]? = some other →
            m.fullName other.token = referred.fullName →
            index + 1 = (TableId.typeDef.token 1).row) →
          m.findType? referred.fullName = some type) := by
  have hcheck : nestedMetadata.toOption.any (fun metadata =>
      (metadata.typeReferences #[]).toOption.isSome && (metadata.toModule "").toOption.isSome &&
      decide (metadata.nesting.toOption = some [(1, 2)]) &&
      decide (metadata.tables.rows .typeRef = 2) && decide (metadata.tables.rows .typeDef = 2) &&
      (metadata.rawTypeReference 1).toOption.any (fun reference =>
        decide ((reference.scope, reference.name) = (TableId.typeRef.token 2, "Inner"))) &&
      (metadata.rawTypeReference 2).toOption.any (fun reference =>
        decide ((reference.scope, reference.name, reference.namespaceName) =
          (TableId.assemblyRef.token 1, "Outer", "N"))) &&
      decide ((metadata.string .typeDef 1 1).toOption = some "Inner") &&
      decide ((metadata.string .typeDef 2 1).toOption = some "Outer") &&
      decide ((metadata.string .typeDef 2 2).toOption = some "N")) = true := by
    decide +kernel
  rcases Outcome.exists_of_any hcheck with ⟨metadata, hmetadata, hfacts⟩
  simp only [Bool.and_eq_true, decide_eq_true_eq] at hfacts
  rcases hfacts with ⟨⟨⟨⟨⟨⟨⟨⟨⟨hrefs, hloads⟩, hnested⟩, hreferences⟩, hdefinitions⟩, hinner⟩,
    houter⟩, hinnerName⟩, houterName⟩, hnamespace⟩
  rcases Outcome.exists_eq_ok hrefs with ⟨typeNames, htypeNames⟩
  rcases Outcome.exists_eq_ok hloads with ⟨m, hmodule⟩
  have hnesting := Outcome.eq_ok_of_toOption hnested
  have hnames : ∀ name ∈ ["Outer", "Inner"], name ≠ "" := by decide
  have hreference : metadata.ReferenceSpells "N" 1 ["Outer", "Inner"] := by
    rcases Outcome.exists_of_any hinner with ⟨inner, hinnerRead, hinnerIs⟩
    rcases Outcome.exists_of_any houter with ⟨outer, houterRead, houterIs⟩
    rw [decide_eq_true_eq, Prod.mk.injEq] at hinnerIs
    rw [decide_eq_true_eq, Prod.mk.injEq, Prod.mk.injEq] at houterIs
    have houterSpells : metadata.ReferenceSpells "N" inner.scope.row [outer.name] := by
      rw [hinnerIs.1]
      refine .outermost ⟨by decide, ?_⟩ houterRead ?_ houterIs.2.2
      · rw [hreferences]
        decide
      · rw [houterIs.1]
        decide
    have hspells : metadata.ReferenceSpells "N" 1 ([outer.name] ++ [inner.name]) :=
      .nested ⟨by decide, by omega⟩ hinnerRead (by rw [hinnerIs.1]; rfl) houterSpells
    rw [← hinnerIs.2, ← houterIs.2.1]
    exact hspells
  have hdefinition :
      metadata.DefinitionSpells [(1, 2)] "N" (TableId.typeDef.token 1) ["Outer", "Inner"] := by
    have houterSpells :
        metadata.DefinitionSpells [(1, 2)] "N" (TableId.typeDef.token 2) ["Outer"] := by
      refine .outermost rfl ⟨by decide, ?_⟩ (Outcome.eq_ok_of_toOption houterName)
        (Outcome.eq_ok_of_toOption hnamespace) rfl
      rw [hdefinitions]
      decide
    have hspells : metadata.DefinitionSpells [(1, 2)] "N" (TableId.typeDef.token 1)
        (["Outer"] ++ ["Inner"]) := by
      refine .nested rfl ⟨by decide, ?_⟩ (Outcome.eq_ok_of_toOption hinnerName) rfl houterSpells
      rw [hdefinitions]
      decide
    exact hspells
  exact ⟨metadata, typeNames, _, m, hmetadata, htypeNames, hmodule, hnesting, hnames, hreference,
    hdefinition, names_agree htypeNames hmodule hnesting hnames hreference hdefinition⟩

end CodeModule
end AssemblyBrowser
