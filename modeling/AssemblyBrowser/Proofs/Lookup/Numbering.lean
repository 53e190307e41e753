import AssemblyBrowser.Module.Basic
import AssemblyBrowser.Module.Builder
import AssemblyBrowser.Proofs.TypeTrees

/-!
# Numbered rows

A token is looked up by the row that it names, and nothing compares it with the
token that is stored there. That is right as long as every definition carries
the token of its own row. Where this holds, and where rows fit tokens, a lookup
finds exactly the definition that carries the token.

A step adds at most one row, under the next token of its table, and lists that
token with at most one type. Everything else that it changes is neither a token
nor a list.
-/

namespace AssemblyBrowser

/-- The token names one of so many rows of a table. -/
def NamesRow (table : TableId) (count : Nat) (token : Token) : Prop :=
  ∃ row, 1 ≤ row ∧ row ≤ count ∧ token = table.token row

theorem NamesRow.mono {table : TableId} {count more : Nat} {token : Token}
    (h : NamesRow table count token) (hle : count ≤ more) : NamesRow table more token := by
  rcases h with ⟨row, hpos, hrow, htoken⟩
  exact ⟨row, hpos, Nat.le_trans hrow hle, htoken⟩

/-- Every item carries the token of its own row. -/
def Numbered {α : Type} (table : TableId) (token : α → Token) (rows : Array α) : Prop :=
  ∀ (index : Nat) (item : α), rows[index]? = some item → token item = table.token (index + 1)

namespace Numbered

variable {α : Type} {table : TableId} {token : α → Token} {rows : Array α}

theorem empty (table : TableId) (token : α → Token) : Numbered table token #[] := by
  intro index item hitem
  simp at hitem

theorem push (h : Numbered table token rows) {item : α}
    (hitem : token item = table.token (rows.size + 1)) : Numbered table token (rows.push item) := by
  intro index other hother
  rw [Array.getElem?_push] at hother
  split at hother
  case isTrue hlast =>
    cases hother
    rw [hlast, hitem]
  case isFalse => exact h index other hother

theorem modify (h : Numbered table token rows) (place : Nat) {change : α → α}
    (hchange : ∀ item, token (change item) = token item) :
    Numbered table token (rows.modify place change) := by
  intro index item hitem
  rw [Array.getElem?_modify] at hitem
  split at hitem
  · rcases Option.map_eq_some_iff.mp hitem with ⟨before, hbefore, hafter⟩
    rw [← hafter, hchange, h index before hbefore]
  · exact h index item hitem

theorem mapIdx (h : Numbered table token rows) {change : Nat → α → α}
    (hchange : ∀ index item, token (change index item) = token item) :
    Numbered table token (rows.mapIdx change) := by
  intro index item hitem
  rw [Array.getElem?_mapIdx] at hitem
  rcases Option.map_eq_some_iff.mp hitem with ⟨before, hbefore, hafter⟩
  rw [← hafter, hchange, h index before hbefore]

/-- A lookup finds the item that carries the token, and no other. -/
theorem byRow_eq_some_iff (h : Numbered table token rows) (hsize : rows.size < 0x1000000)
    {wanted : Token} {item : α} :
    byRow rows table wanted = some item ↔ item ∈ rows ∧ token item = wanted := by
  unfold byRow
  constructor
  · intro hfound
    split at hfound
    case isTrue hnamed =>
      have hsame : token item = table.token wanted.row := by
        rw [h _ item hfound, Nat.sub_add_cancel (Nat.pos_of_ne_zero hnamed.2)]
      refine ⟨Array.mem_of_getElem? hfound, ?_⟩
      rw [hsame, TableId.token, ← hnamed.1, Token.ofParts_table_row]
    case isFalse => cases hfound
  · rintro ⟨hmem, rfl⟩
    rcases Array.mem_iff_getElem?.mp hmem with ⟨index, hindex⟩
    have hlt : index < rows.size := (Array.getElem?_eq_some_iff.mp hindex).1
    have hrow : (token item).row = index + 1 := by
      rw [h index item hindex]
      exact Token.row_ofParts table.number (index + 1) (by omega)
    have htable : (token item).table = table.number := by
      rw [h index item hindex, TableId.table_token]
    rw [if_pos ⟨htable, by omega⟩, hrow]
    exact hindex

theorem namesRow (h : Numbered table token rows) {item : α} (hmem : item ∈ rows) :
    NamesRow table rows.size (token item) := by
  rcases Array.mem_iff_getElem?.mp hmem with ⟨index, hindex⟩
  have hlt : index < rows.size := (Array.getElem?_eq_some_iff.mp hindex).1
  exact ⟨index + 1, Nat.le_add_left 1 index, hlt, h index item hindex⟩

/-- A token of a row that there is finds an item. -/
theorem exists_byRow (h : Numbered table token rows) (hsize : rows.size < 0x1000000)
    {wanted : Token} (hnames : NamesRow table rows.size wanted) :
    ∃ item, byRow rows table wanted = some item := by
  rcases hnames with ⟨row, hpos, hle, rfl⟩
  have hlt : row - 1 < rows.size := by omega
  refine ⟨rows[row - 1], (h.byRow_eq_some_iff hsize).mpr ⟨Array.getElem_mem hlt, ?_⟩⟩
  rw [h (row - 1) _ (Array.getElem?_eq_getElem hlt), Nat.sub_add_cancel hpos]

theorem rows_increase (h : Numbered table token rows) (hsize : rows.size < 0x1000000) :
    rows.toList.Pairwise fun a b => (token a).row < (token b).row := by
  rw [List.pairwise_iff_getElem]
  intro i j hi hj hlt
  rw [Array.length_toList] at hi hj
  have hrow (k : Nat) (hk : k < rows.size) : (token rows[k]).row = k + 1 := by
    rw [h k _ (Array.getElem?_eq_getElem hk)]
    exact Token.row_ofParts table.number (k + 1) (by omega)
  simp only [Array.getElem_toList, hrow i hi, hrow j hj]
  omega

theorem nodup (h : Numbered table token rows) (hsize : rows.size < 0x1000000) :
    rows.toList.Nodup :=
  (h.rows_increase hsize).imp fun hlt heq => by
    rw [heq] at hlt
    exact Nat.lt_irrefl _ hlt

theorem eq_of_token (h : Numbered table token rows) (hsize : rows.size < 0x1000000)
    {item other : α} (hitem : item ∈ rows) (hother : other ∈ rows)
    (htoken : token item = token other) : item = other := by
  have hfound := (h.byRow_eq_some_iff hsize).mpr ⟨hitem, htoken⟩
  rw [(h.byRow_eq_some_iff hsize).mpr ⟨hother, rfl⟩] at hfound
  exact (Option.some.inj hfound).symm

end Numbered

/-!
## Modules
-/

/-- What a type lists stands in rows that there are, so many for each table. -/
structure TypeDefinition.ListsWithin (type : TypeDefinition) (counts : TableId → Nat) : Prop where
  nestedTypes : ∀ token ∈ type.nestedTypes, NamesRow .typeDef (counts .typeDef) token
  fields : ∀ token ∈ type.fields, NamesRow .field (counts .field) token
  methods : ∀ token ∈ type.methods, NamesRow .methodDef (counts .methodDef) token
  properties : ∀ token ∈ type.properties, NamesRow .property (counts .property) token
  events : ∀ token ∈ type.events, NamesRow .event (counts .event) token

theorem TypeDefinition.ListsWithin.mono {type : TypeDefinition} {counts more : TableId → Nat}
    (h : type.ListsWithin counts) (hle : ∀ table, counts table ≤ more table) :
    type.ListsWithin more where
  nestedTypes token hmem := (h.nestedTypes token hmem).mono (hle .typeDef)
  fields token hmem := (h.fields token hmem).mono (hle .field)
  methods token hmem := (h.methods token hmem).mono (hle .methodDef)
  properties token hmem := (h.properties token hmem).mono (hle .property)
  events token hmem := (h.events token hmem).mono (hle .event)

namespace CodeModule

variable {m : CodeModule}

/-- How many definitions there are of each table. -/
def definitionCount (m : CodeModule) : TableId → Nat
  | .typeDef => m.types.size
  | .methodDef => m.methods.size
  | .field => m.fields.size
  | .property => m.properties.size
  | .event => m.events.size
  | _ => 0

/-- Every definition carries the token of its row, and what types list exists. -/
structure Indexed (m : CodeModule) : Prop where
  types : Numbered .typeDef TypeDefinition.token m.types
  methods : Numbered .methodDef MethodDefinition.token m.methods
  fields : Numbered .field FieldDefinition.token m.fields
  properties : Numbered .property PropertyDefinition.token m.properties
  events : Numbered .event EventDefinition.token m.events
  lists : ∀ type ∈ m.types, type.ListsWithin m.definitionCount

/-!
A table may be replaced by a longer one whose rows are numbered.
-/

theorem definitionCount_mono {m n : CodeModule} (htypes : m.types.size ≤ n.types.size)
    (hmethods : m.methods.size ≤ n.methods.size) (hfields : m.fields.size ≤ n.fields.size)
    (hproperties : m.properties.size ≤ n.properties.size)
    (hevents : m.events.size ≤ n.events.size) (table : TableId) :
    m.definitionCount table ≤ n.definitionCount table := by
  cases table <;> first | assumption | exact Nat.le_refl 0

namespace Indexed

theorem withMethods (h : m.Indexed) {methods : Array MethodDefinition}
    (hnumbered : Numbered .methodDef MethodDefinition.token methods)
    (hsize : m.methods.size ≤ methods.size) : ({ m with methods } : CodeModule).Indexed := by
  refine ⟨h.types, hnumbered, h.fields, h.properties, h.events, fun type hmem => ?_⟩
  exact (h.lists type hmem).mono (definitionCount_mono (Nat.le_refl _) hsize (Nat.le_refl _)
    (Nat.le_refl _) (Nat.le_refl _))

theorem withFields (h : m.Indexed) {fields : Array FieldDefinition}
    (hnumbered : Numbered .field FieldDefinition.token fields)
    (hsize : m.fields.size ≤ fields.size) : ({ m with fields } : CodeModule).Indexed := by
  refine ⟨h.types, h.methods, hnumbered, h.properties, h.events, fun type hmem => ?_⟩
  exact (h.lists type hmem).mono (definitionCount_mono (Nat.le_refl _) (Nat.le_refl _) hsize
    (Nat.le_refl _) (Nat.le_refl _))

theorem withProperties (h : m.Indexed) {properties : Array PropertyDefinition}
    (hnumbered : Numbered .property PropertyDefinition.token properties)
    (hsize : m.properties.size ≤ properties.size) :
    ({ m with properties } : CodeModule).Indexed := by
  refine ⟨h.types, h.methods, h.fields, hnumbered, h.events, fun type hmem => ?_⟩
  exact (h.lists type hmem).mono (definitionCount_mono (Nat.le_refl _) (Nat.le_refl _)
    (Nat.le_refl _) hsize (Nat.le_refl _))

theorem withEvents (h : m.Indexed) {events : Array EventDefinition}
    (hnumbered : Numbered .event EventDefinition.token events)
    (hsize : m.events.size ≤ events.size) : ({ m with events } : CodeModule).Indexed := by
  refine ⟨h.types, h.methods, h.fields, h.properties, hnumbered, fun type hmem => ?_⟩
  exact (h.lists type hmem).mono (definitionCount_mono (Nat.le_refl _) (Nat.le_refl _)
    (Nat.le_refl _) (Nat.le_refl _) hsize)

end Indexed

end CodeModule

/-!
## Building keeps rows numbered
-/

namespace CodeModule

namespace Indexed

variable {m : CodeModule}

theorem ofInitial (name : String) : (initial name).Indexed where
  types := Numbered.push (Numbered.empty _ _) rfl
  methods := Numbered.empty _ _
  fields := Numbered.empty _ _
  properties := Numbered.empty _ _
  events := Numbered.empty _ _
  lists type hmem := by
    rcases Array.mem_singleton.mp hmem with rfl
    constructor <;> (intro token htoken; cases htoken)

/-!
## Changing a row
-/

/-- What holds of all items holds after a change that keeps it. -/
theorem forall_mem_modify {α : Type} {P : α → Prop} {items : Array α} (h : ∀ item ∈ items, P item)
    (place : Nat) {change : α → α} (hchange : ∀ item, P item → P (change item)) :
    ∀ item ∈ items.modify place change, P item := by
  intro item hmem
  rcases Array.mem_iff_getElem?.mp hmem with ⟨index, hindex⟩
  rw [Array.getElem?_modify] at hindex
  split at hindex
  · rcases Option.map_eq_some_iff.mp hindex with ⟨before, hbefore, hafter⟩
    rw [← hafter]
    exact hchange before (h before (Array.mem_of_getElem? hbefore))
  · exact h item (Array.mem_of_getElem? hindex)

theorem modifyType (h : m.Indexed) (token : Token) {change : TypeDefinition → TypeDefinition}
    (htoken : ∀ type, (change type).token = type.token)
    (hlists : ∀ type : TypeDefinition, type.ListsWithin m.definitionCount →
      (change type).ListsWithin m.definitionCount) :
    (m.modifyType token change).Indexed := by
  unfold CodeModule.modifyType
  split
  · exact h
  · refine ⟨h.types.modify _ htoken, h.methods, h.fields, h.properties, h.events, ?_⟩
    intro type hmem
    refine (forall_mem_modify h.lists _ hlists type hmem).mono ?_
    exact definitionCount_mono (Nat.le_of_eq Array.size_modify.symm) (Nat.le_refl _) (Nat.le_refl _)
      (Nat.le_refl _) (Nat.le_refl _)

theorem modifyMethod (h : m.Indexed) (token : Token)
    {change : MethodDefinition → MethodDefinition}
    (htoken : ∀ method, (change method).token = method.token) :
    (m.modifyMethod token change).Indexed := by
  unfold CodeModule.modifyMethod
  split
  · exact h
  · exact h.withMethods (h.methods.modify _ htoken) (Nat.le_of_eq Array.size_modify.symm)

theorem markAccessor (h : m.Indexed) (method : Option Token) (role : AccessorRole) :
    (m.markAccessor method role).Indexed := by
  cases method with
  | none => exact h
  | some token => exact h.modifyMethod token fun _ => rfl

theorem markAccessor_properties (m : CodeModule) (method : Option Token) (role : AccessorRole) :
    (m.markAccessor method role).properties = m.properties := by
  unfold CodeModule.markAccessor CodeModule.modifyMethod
  split
  · rfl
  · split <;> rfl

theorem markAccessor_events (m : CodeModule) (method : Option Token) (role : AccessorRole) :
    (m.markAccessor method role).events = m.events := by
  unfold CodeModule.markAccessor CodeModule.modifyMethod
  split
  · rfl
  · split <;> rfl

/-!
## Listing a row with a type
-/

theorem listNestedType (h : m.Indexed) (outer : Token) {token : Token}
    (hrow : NamesRow .typeDef m.types.size token) :
    (m.modifyType outer fun t => { t with nestedTypes := t.nestedTypes ++ [token] }).Indexed :=
  h.modifyType outer (fun _ => rfl) fun _ hlists =>
    ⟨List.forall_mem_append.mpr ⟨hlists.nestedTypes, List.forall_mem_singleton.mpr hrow⟩,
      hlists.fields, hlists.methods, hlists.properties, hlists.events⟩

theorem listField (h : m.Indexed) (type : Token) {token : Token}
    (hrow : NamesRow .field m.fields.size token) :
    (m.modifyType type fun t => { t with fields := t.fields ++ [token] }).Indexed :=
  h.modifyType type (fun _ => rfl) fun _ hlists =>
    ⟨hlists.nestedTypes,
      List.forall_mem_append.mpr ⟨hlists.fields, List.forall_mem_singleton.mpr hrow⟩,
      hlists.methods, hlists.properties, hlists.events⟩

theorem listMethod (h : m.Indexed) (type : Token) {token : Token}
    (hrow : NamesRow .methodDef m.methods.size token) :
    (m.modifyType type fun t => { t with methods := t.methods ++ [token] }).Indexed :=
  h.modifyType type (fun _ => rfl) fun _ hlists =>
    ⟨hlists.nestedTypes, hlists.fields,
      List.forall_mem_append.mpr ⟨hlists.methods, List.forall_mem_singleton.mpr hrow⟩,
      hlists.properties, hlists.events⟩

theorem listProperty (h : m.Indexed) (type : Token) {token : Token}
    (hrow : NamesRow .property m.properties.size token) :
    (m.modifyType type fun t => { t with properties := t.properties ++ [token] }).Indexed :=
  h.modifyType type (fun _ => rfl) fun _ hlists =>
    ⟨hlists.nestedTypes, hlists.fields, hlists.methods,
      List.forall_mem_append.mpr ⟨hlists.properties, List.forall_mem_singleton.mpr hrow⟩,
      hlists.events⟩

theorem listEvent (h : m.Indexed) (type : Token) {token : Token}
    (hrow : NamesRow .event m.events.size token) :
    (m.modifyType type fun t => { t with events := t.events ++ [token] }).Indexed :=
  h.modifyType type (fun _ => rfl) fun _ hlists =>
    ⟨hlists.nestedTypes, hlists.fields, hlists.methods, hlists.properties,
      List.forall_mem_append.mpr ⟨hlists.events, List.forall_mem_singleton.mpr hrow⟩⟩

/-!
## Adding a row
-/

/-- The token of a new row names it. -/
theorem namesRow_push {α : Type} (table : TableId) (rows : Array α) (item : α) :
    NamesRow table (rows.push item).size (table.token (rows.size + 1)) :=
  ⟨rows.size + 1, Nat.le_add_left 1 _, Nat.le_of_eq (Array.size_push item).symm, rfl⟩

theorem pushType (h : m.Indexed) (namespaceName name : String) (kind : TypeKind) (flags : Nat)
    (declaringType : Option Token) :
    (m.pushType namespaceName name kind flags declaringType).1.Indexed := by
  refine ⟨h.types.push rfl, h.methods, h.fields, h.properties, h.events, ?_⟩
  intro type hmem
  rcases Array.mem_push.mp hmem with hbefore | rfl
  · refine (h.lists type hbefore).mono ?_
    exact definitionCount_mono (by simp [CodeModule.pushType]) (Nat.le_refl _) (Nat.le_refl _)
      (Nat.le_refl _) (Nat.le_refl _)
  · constructor <;> (intro token htoken; cases htoken)

theorem pushMethod (h : m.Indexed) {method : MethodDefinition}
    (htoken : method.token = TableId.methodDef.token (m.methods.size + 1)) :
    ({ m with methods := m.methods.push method } : CodeModule).Indexed :=
  h.withMethods (h.methods.push htoken) (by simp)

theorem pushProperty (h : m.Indexed) {property : PropertyDefinition}
    (htoken : property.token = TableId.property.token (m.properties.size + 1)) :
    ({ m with properties := m.properties.push property } : CodeModule).Indexed :=
  h.withProperties (h.properties.push htoken) (by simp)

theorem pushEvent (h : m.Indexed) {event : EventDefinition}
    (htoken : event.token = TableId.event.token (m.events.size + 1)) :
    ({ m with events := m.events.push event } : CodeModule).Indexed :=
  h.withEvents (h.events.push htoken) (by simp)

theorem pushField (h : m.Indexed) (type : Token) (name : String) (flags : Nat)
    (fieldType : TypeExpr) (constant : Option Constant) :
    (m.pushField type name flags fieldType constant).1.Indexed :=
  (h.withFields (h.fields.push rfl) (by simp)).listField type (namesRow_push .field m.fields _)

/-!
## Steps
-/

theorem build (h : m.Indexed) (step : BuildStep) : (m.build step).1.Indexed := by
  cases step with
  | assembly name version => exact ⟨h.1, h.2, h.3, h.4, h.5, h.6⟩
  | runtime version => exact ⟨h.1, h.2, h.3, h.4, h.5, h.6⟩
  | type namespaceName name kind flags => exact h.pushType namespaceName name kind flags none
  | nestedType outer name kind flags =>
      exact (h.pushType _ name kind flags (some outer)).listNestedType outer
        (namesRow_push .typeDef m.types _)
  | base type base =>
      exact h.modifyType type (fun _ => rfl) fun _ hlists =>
        ⟨hlists.1, hlists.2, hlists.3, hlists.4, hlists.5⟩
  | interface type interface =>
      exact h.modifyType type (fun _ => rfl) fun _ hlists =>
        ⟨hlists.1, hlists.2, hlists.3, hlists.4, hlists.5⟩
  | genericParameters type names =>
      exact h.modifyType type (fun _ => rfl) fun _ hlists =>
        ⟨hlists.1, hlists.2, hlists.3, hlists.4, hlists.5⟩
  | method type name flags returnType parameters =>
      exact (h.pushMethod rfl).listMethod type (namesRow_push .methodDef m.methods _)
  | field type name flags fieldType => exact h.pushField type name flags fieldType none
  | constant type name fieldType value =>
      exact h.pushField type name publicConstantFlags fieldType (some value)
  | property type name propertyType getter setter =>
      refine (((h.pushProperty ?_).markAccessor getter .getter).markAccessor setter
        .setter).listProperty type ?_
      · rfl
      · rw [markAccessor_properties, markAccessor_properties]
        exact namesRow_push .property m.properties _
  | event type name eventType adder remover =>
      refine (((h.pushEvent ?_).markAccessor adder .adder).markAccessor remover
        .remover).listEvent type ?_
      · rfl
      · rw [markAccessor_events, markAccessor_events]
        exact namesRow_push .event m.events _
  | reference identity => exact ⟨h.1, h.2, h.3, h.4, h.5, h.6⟩
  | resource name length isPublic => exact ⟨h.1, h.2, h.3, h.4, h.5, h.6⟩
  | entryPoint method => exact ⟨h.1, h.2, h.3, h.4, h.5, h.6⟩

theorem buildAll (h : m.Indexed) (steps : List BuildStep) : (m.buildAll steps).1.Indexed := by
  induction steps generalizing m with
  | nil => exact h
  | cons step steps ih => exact ih (h.build step)

end Indexed

/-- However a module is built, its rows are numbered. -/
theorem indexed_ofSteps (name : String) (steps : List BuildStep) :
    (ofSteps name steps).1.Indexed :=
  (Indexed.ofInitial name).buildAll steps

end CodeModule
end AssemblyBrowser
