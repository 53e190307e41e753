import Mathlib.Tactic.SplitIfs
import AssemblyBrowser.Proofs.Containment.Agreement

/-!
# Loading twice

Two images that agree in everything but signatures are loaded side by side. Every
pass of the second run gives a value where the first one does, and what the passes
build stays the same row by row, except for the types that signatures stand for.
How much these may differ is said by a leeway, table by table.
-/

namespace AssemblyBrowser

/-!
## Computations side by side
-/

/-- If the first computation gives a value, the second one gives a related value. -/
def Simulates {ε α β : Type} (R : α → β → Prop) (x : Except ε α) (y : Except ε β) : Prop :=
  ∀ a, x = .ok a → ∃ b, y = .ok b ∧ R a b

namespace Simulates

variable {ε α β γ δ ι : Type} {R : α → β → Prop} {S : γ → δ → Prop}

theorem pure {a : α} {b : β} (h : R a b) :
    Simulates R (Pure.pure a : Except ε α) (Pure.pure b) := by
  intro value hvalue
  cases hvalue
  exact ⟨b, rfl, h⟩

/-- The same computation, where values are related to themselves. -/
theorem of_eq {R : α → α → Prop} {x y : Except ε α} (hxy : y = x) (hrefl : ∀ a, R a a) :
    Simulates R x y :=
  fun a ha => ⟨a, hxy.trans ha, hrefl a⟩

/-- A computation that gives a value, where all values are related. -/
theorem of_exists {x : Except ε α} {y : Except ε β} (hy : ∃ b, y = .ok b) (hall : ∀ a b, R a b) :
    Simulates R x y := by
  obtain ⟨b, hb⟩ := hy
  exact fun a _ => ⟨b, hb, hall a b⟩

theorem mono {R' : α → β → Prop} {x : Except ε α} {y : Except ε β} (hxy : Simulates R x y)
    (h : ∀ a b, R a b → R' a b) : Simulates R' x y := by
  intro a ha
  obtain ⟨b, hb, hab⟩ := hxy a ha
  exact ⟨b, hb, h a b hab⟩

theorem bind {x : Except ε α} {y : Except ε β} {f : α → Except ε γ} {g : β → Except ε δ}
    (hxy : Simulates R x y) (hfg : ∀ a b, R a b → Simulates S (f a) (g b)) :
    Simulates S (x >>= f) (y >>= g) := by
  intro value hvalue
  obtain ⟨a, hx, hf⟩ := Outcome.bind_eq_ok.mp hvalue
  obtain ⟨b, hy, hab⟩ := hxy a hx
  obtain ⟨other, hother, hrelated⟩ := hfg a b hab value hf
  exact ⟨other, Outcome.bind_eq_ok.mpr ⟨b, hy, hother⟩, hrelated⟩

/-- Both computations begin with the same step. -/
theorem bind_same {x y : Except ε α} {f : α → Except ε γ} {g : α → Except ε δ} (hxy : y = x)
    (hfg : ∀ a, x = .ok a → Simulates S (f a) (g a)) : Simulates S (x >>= f) (y >>= g) := by
  intro value hvalue
  obtain ⟨a, hx, hf⟩ := Outcome.bind_eq_ok.mp hvalue
  obtain ⟨other, hother, hrelated⟩ := hfg a hx value hf
  exact ⟨other, Outcome.bind_eq_ok.mpr ⟨a, hxy.trans hx, hother⟩, hrelated⟩

/-- Both computations choose between two steps before they go on. -/
theorem join {c : Prop} [Decidable c] {x₁ x₂ : Except ε α} {y₁ y₂ : Except ε β}
    {f : α → Except ε γ} {g : β → Except ε δ}
    (hxy : Simulates R (if c then x₁ else x₂) (if c then y₁ else y₂))
    (hfg : ∀ a b, R a b → Simulates S (f a) (g b)) :
    Simulates S (if c then x₁ >>= f else x₂ >>= f) (if c then y₁ >>= g else y₂ >>= g) := by
  split
  case isTrue hc =>
    rw [if_pos hc, if_pos hc] at hxy
    exact hxy.bind hfg
  case isFalse hc =>
    rw [if_neg hc, if_neg hc] at hxy
    exact hxy.bind hfg

theorem foldlM {f : α → ι → Except ε α} {g : β → ι → Except ε β} {items : List ι} {a : α} {b : β}
    (hstart : R a b) (hstep : ∀ a b item, R a b → Simulates R (f a item) (g b item)) :
    Simulates R (items.foldlM f a) (items.foldlM g b) := by
  induction items generalizing a b with
  | nil => exact pure hstart
  | cons item rest ih =>
      rw [List.foldlM_cons, List.foldlM_cons]
      exact (hstep a b item hstart).bind fun _ _ hnext => ih hnext

end Simulates

/-!
## Rows side by side
-/

/-- As many rows, related one by one; the first has the number 1. -/
def Rowwise {α : Type} (R : Nat → α → α → Prop) (before after : Array α) : Prop :=
  after.size = before.size ∧
    ∀ (index : Nat) (x y : α), before[index]? = some x → after[index]? = some y →
      R (index + 1) x y

namespace Rowwise

variable {α β : Type} {R : Nat → α → α → Prop} {before after : Array α}

theorem empty : Rowwise R #[] #[] := by
  refine ⟨rfl, fun index x y hx _ => ?_⟩
  simp at hx

theorem exists_of_before (h : Rowwise R before after) {index : Nat} {x : α}
    (hx : before[index]? = some x) : ∃ y, after[index]? = some y ∧ R (index + 1) x y := by
  obtain ⟨hlt, -⟩ := Array.getElem?_eq_some_iff.mp hx
  obtain ⟨y, hy⟩ : ∃ y, after[index]? = some y := ⟨_, Array.getElem?_eq_getElem (h.1 ▸ hlt)⟩
  exact ⟨y, hy, h.2 index x y hx hy⟩

/-- What related rows agree in is the same for all rows. -/
theorem map_eq (h : Rowwise R before after) {f : α → β}
    (hf : ∀ row x y, R row x y → f y = f x) : after.map f = before.map f := by
  refine Array.ext (by simp [h.1]) fun index hafter hbefore => ?_
  have hlt : index < before.size := by simpa using hbefore
  obtain ⟨y, hy, hxy⟩ := h.exists_of_before (Array.getElem?_eq_getElem hlt)
  obtain ⟨hlt', rfl⟩ := Array.getElem?_eq_some_iff.mp hy
  simp [hf _ _ _ hxy]

theorem modify (h : Rowwise R before after) {index : Nat} {f g : α → α}
    (hfg : ∀ row x y, R row x y → R row (f x) (g y)) :
    Rowwise R (before.modify index f) (after.modify index g) := by
  refine ⟨by simp [h.1], fun place x y hx hy => ?_⟩
  rw [Array.getElem?_modify] at hx hy
  split at hx
  case isTrue heq =>
    rw [if_pos heq] at hy
    obtain ⟨x, hbefore, rfl⟩ := Option.map_eq_some_iff.mp hx
    obtain ⟨y, hafter, rfl⟩ := Option.map_eq_some_iff.mp hy
    exact hfg _ x y (h.2 place x y hbefore hafter)
  case isFalse hne =>
    rw [if_neg hne] at hy
    exact h.2 place x y hx hy

theorem mapIdx (h : Rowwise R before after) {f : Nat → α → α}
    (hf : ∀ row x y, R row x y → R row (f (row - 1) x) (f (row - 1) y)) :
    Rowwise R (before.mapIdx f) (after.mapIdx f) := by
  refine ⟨by simp [h.1], fun index x y hx hy => ?_⟩
  rw [Array.getElem?_mapIdx] at hx hy
  obtain ⟨x, hbefore, rfl⟩ := Option.map_eq_some_iff.mp hx
  obtain ⟨y, hafter, rfl⟩ := Option.map_eq_some_iff.mp hy
  exact hf _ x y (h.2 index x y hbefore hafter)

/-- Nothing but one row has changed. -/
theorem eq_modify (h : Rowwise R before after) {row : Nat} (hrow : 1 ≤ row) {edit : α → α}
    (hsame : ∀ other x y, R other x y → other ≠ row → y = x)
    (hedit : ∀ x y, R row x y → after[row - 1]? = some y → y = edit x) :
    after = before.modify (row - 1) edit := by
  refine Array.ext_getElem? fun index => ?_
  rw [Array.getElem?_modify]
  cases hx : before[index]? with
  | none =>
      have hsize : before.size ≤ index := Array.getElem?_eq_none_iff.mp hx
      rw [Array.getElem?_eq_none_iff.mpr (by rw [h.1]; exact hsize)]
      simp
  | some x =>
      obtain ⟨y, hy, hxy⟩ := h.exists_of_before hx
      rw [hy]
      split
      case isTrue heq =>
        subst heq
        rw [Nat.sub_add_cancel hrow] at hxy
        rw [hedit x y hxy hy]
        rfl
      case isFalse hne => rw [hsame (index + 1) x y hxy (by omega)]

theorem eq (h : Rowwise R before after) (hsame : ∀ row x y, R row x y → y = x) :
    after = before := by
  have hmap := h.map_eq (f := id) hsame
  simpa using hmap

/-- The same of related rows are kept, and they give the same. -/
theorem map_filter_eq {before after : List α} (h : Rowwise R before.toArray after.toArray)
    {p : α → Bool} {f : α → β} (hf : ∀ row x y, R row x y → p y = p x ∧ f y = f x) :
    (after.filter p).map f = (before.filter p).map f := by
  have hsplit (items : List α) :
      (items.filter p).map f = ((items.map fun x => (p x, f x)).filter Prod.fst).map Prod.snd := by
    rw [List.filter_map, List.map_map]
    rfl
  have hpairs := h.map_eq (f := fun x => (p x, f x)) fun row x y hxy =>
    Prod.ext (hf row x y hxy).1 (hf row x y hxy).2
  rw [List.map_toArray, List.map_toArray] at hpairs
  have hlists : after.map (fun x => (p x, f x)) = before.map fun x => (p x, f x) :=
    congrArg Array.toList hpairs
  rw [hsplit, hsplit, hlists]

end Rowwise

/-- As many items, related one by one. -/
def Itemwise {α : Type} (R : Nat → α → α → Prop) (before after : List α) : Prop :=
  after.length = before.length ∧
    ∀ (index : Nat) (x y : α), before[index]? = some x → after[index]? = some y → R index x y

/-- Related items stay related when one of them is changed. -/
theorem Itemwise.modify {α : Type} {R : Nat → α → α → Prop} {before after : List α}
    (h : Itemwise R before after) {place : Nat} {f g : α → α}
    (hfg : ∀ index x y, R index x y → R index (f x) (g y)) :
    Itemwise R (before.modify place f) (after.modify place g) := by
  refine ⟨by simp [h.1], fun index x y hx hy => ?_⟩
  rw [List.getElem?_modify] at hx hy
  obtain ⟨x, hbefore, rfl⟩ := Option.map_eq_some_iff.mp hx
  obtain ⟨y, hafter, rfl⟩ := Option.map_eq_some_iff.mp hy
  have hxy := h.2 index x y hbefore hafter
  split
  · exact hfg index x y hxy
  · exact hxy

/-- The same is done for every item side by side. -/
theorem Simulates.mapM {ε α ι : Type} {R : Nat → α → α → Prop} {f g : ι → Except ε α}
    {items : List ι}
    (h : ∀ index item, items[index]? = some item → Simulates (R index) (f item) (g item)) :
    Simulates (Itemwise R) (items.mapM f) (items.mapM g) := by
  induction items generalizing R with
  | nil => exact Simulates.pure ⟨rfl, by simp⟩
  | cons item rest ih =>
      rw [List.mapM_cons, List.mapM_cons]
      refine (h 0 item rfl).bind fun x y hxy => ?_
      refine (ih (R := fun index => R (index + 1)) fun index => h (index + 1)).bind ?_
      rintro before after ⟨hlength, hrest⟩
      refine Simulates.pure ⟨by simp [hlength], fun index => ?_⟩
      cases index with
      | zero => simpa using hxy
      | succ index => simpa using hrest index

/-!
## Modules side by side
-/

/-- What a type inherits from: its base type, its interfaces and the kind that follows. -/
def TypeDefinition.lineage (type : TypeDefinition) : Option TypeExpr × List TypeExpr × TypeKind :=
  (type.base, type.interfaces, type.kind)

/-- How far the types in signatures may differ, row by row. -/
structure Leeway where
  lineage : Nat → Option TypeExpr × List TypeExpr × TypeKind →
    Option TypeExpr × List TypeExpr × TypeKind → Prop
  field : Nat → TypeExpr → TypeExpr → Prop
  method : Nat → TypeExpr × List Parameter → TypeExpr × List Parameter → Prop
  property : Nat → TypeExpr × List TypeExpr → TypeExpr × List TypeExpr → Prop
  event : Nat → TypeExpr → TypeExpr → Prop

namespace Leeway

variable (leeway : Leeway)

/-- Types that differ in what they inherit from only. -/
def Types (row : Nat) (before after : TypeDefinition) : Prop :=
  after = { before with base := after.base, interfaces := after.interfaces, kind := after.kind } ∧
    leeway.lineage row before.lineage after.lineage

/-- Fields that differ in their types only. -/
def Fields (row : Nat) (before after : FieldDefinition) : Prop :=
  after = { before with type := after.type } ∧ leeway.field row before.type after.type

/-- Methods that differ in their return types and parameters only. -/
def Methods (row : Nat) (before after : MethodDefinition) : Prop :=
  after = { before with returnType := after.returnType, parameters := after.parameters } ∧
    leeway.method row (before.returnType, before.parameters) (after.returnType, after.parameters)

/-- Properties that differ in their types and parameters only. -/
def Properties (row : Nat) (before after : PropertyDefinition) : Prop :=
  after = { before with type := after.type, parameters := after.parameters } ∧
    leeway.property row (before.type, before.parameters) (after.type, after.parameters)

/-- Events that differ in their types only. -/
def Events (row : Nat) (before after : EventDefinition) : Prop :=
  after = { before with type := after.type } ∧ leeway.event row before.type after.type

/-- Modules that differ in the types in signatures only, and in these as far as they may. -/
structure Within (before after : CodeModule) : Prop where
  rest : after = { before with
    types := after.types, methods := after.methods, fields := after.fields
    properties := after.properties, events := after.events }
  types : Rowwise leeway.Types before.types after.types
  fields : Rowwise leeway.Fields before.fields after.fields
  methods : Rowwise leeway.Methods before.methods after.methods
  properties : Rowwise leeway.Properties before.properties after.properties
  events : Rowwise leeway.Events before.events after.events

namespace Within

variable {leeway : Leeway} {before after : CodeModule} (h : leeway.Within before after)

include h

theorem typeGenerics (type : Token) :
    ImageMetadata.typeGenerics after type = ImageMetadata.typeGenerics before type := by
  have hgenerics : after.types.map TypeDefinition.genericParameters =
      before.types.map TypeDefinition.genericParameters :=
    h.types.map_eq fun _ _ _ hxy => by rw [hxy.1]
  have hat (index : Nat) : (after.types[index]?).map TypeDefinition.genericParameters =
      (before.types[index]?).map TypeDefinition.genericParameters := by
    rw [← Array.getElem?_map, ← Array.getElem?_map, hgenerics]
  unfold ImageMetadata.typeGenerics CodeModule.type? byRow
  split
  · rw [hat]
  · rfl

/-- Members belong to the same types, if types list the same members. -/
theorem ownersFromLists {members : TypeDefinition → List Token}
    (hmembers : ∀ row x y, leeway.Types row x y → members y = members x) (count : Nat) :
    ImageMetadata.ownersFromLists after.types members count =
      ImageMetadata.ownersFromLists before.types members count := by
  have hlists : after.types.map (fun type => (members type, type.token)) =
      before.types.map (fun type => (members type, type.token)) :=
    h.types.map_eq fun row x y hxy => by rw [hmembers row x y hxy, hxy.1]
  have hfold (types : Array TypeDefinition) :
      ImageMetadata.ownersFromLists types members count =
        (types.map fun type => (members type, type.token)).toList.foldlM
          (fun owners listed => listed.1.foldlM
            (fun owners m => do
              Bounded.replace owners (← Bounded.subtract m.row 1) listed.2) owners)
          (Array.replicate count Token.zero) := by
    rw [Array.toList_map, List.foldlM_map]
    rfl
  rw [hfold, hfold, hlists]

/-- Accessors are linked side by side. -/
theorem linkAccessor (method : Token) (role : AccessorRole) (owner : Token) :
    leeway.Within (ImageMetadata.linkAccessor before method role owner)
      (ImageMetadata.linkAccessor after method role owner) := by
  have hmethods : Rowwise leeway.Methods
      (before.methods.modify (method.row - 1) fun d => { d with role := some role })
      (after.methods.modify (method.row - 1) fun d => { d with role := some role }) :=
    h.methods.modify fun row x y hxy => ⟨by rw [hxy.1], hxy.2⟩
  unfold ImageMetadata.linkAccessor
  rw [h.methods.1]
  dsimp only
  split_ifs with hmissing howner hproperty
  · exact h
  · exact { h with rest := by rw [h.rest], methods := hmethods }
  · refine { h with rest := by rw [h.rest], methods := hmethods, properties := ?_ }
    refine h.properties.modify fun row x y hxy => ?_
    cases role <;> exact ⟨by rw [hxy.1]; rfl, hxy.2⟩
  · refine { h with rest := by rw [h.rest], methods := hmethods, events := ?_ }
    refine h.events.modify fun row x y hxy => ?_
    cases role <;> exact ⟨by rw [hxy.1]; rfl, hxy.2⟩

/-- Fields get their values side by side. -/
theorem withConstant (index : Nat) (value : Constant) :
    leeway.Within
      { before with
        fields := before.fields.modify index fun f => { f with constant := some value } }
      { after with
        fields := after.fields.modify index fun f => { f with constant := some value } } :=
  { h with
    rest := by rw [h.rest]
    fields := h.fields.modify fun row x y hxy => ⟨by rw [hxy.1], hxy.2⟩ }

end Within
end Leeway

namespace ImageMetadata

/-- The type of an event with that handler. -/
def handlerType (scope : TypeScope) (handler : Token) : Except Error TypeExpr :=
  if handler.isNull then .ok .object else scope.tokenOrObject {} handler

/-- Two images whose signatures stand for types that differ as far as they may. -/
structure Parallel (leeway : Leeway) (metadata changed : ImageMetadata) (scope other : TypeScope) :
    Prop where
  same : metadata.SameButSignatures changed
  type : ∀ m {implementations}, metadata.implementations = .ok implementations → ∀ row,
    Simulates (leeway.Types row) (metadata.typeWithHierarchy scope m implementations row)
      (changed.typeWithHierarchy other m implementations row)
  field : ∀ names row, Simulates (leeway.field row)
    (scope.signatureOrObject names ((metadata.blob .field row 2).bind Signature.field.parse))
    (other.signatureOrObject names ((changed.blob .field row 2).bind Signature.field.parse))
  method : ∀ names row,
    Simulates
      (fun before after => ∀ range, metadata.tables.listRange .methodDef row 5 .param = .ok range →
        Simulates
          (fun named renamed => leeway.method row (before.1, named) (after.1, renamed))
          (metadata.nameParameters before.2 (List.range' range.1 (range.2 - range.1)))
          (changed.nameParameters after.2 (List.range' range.1 (range.2 - range.1))))
      (metadata.methodTypes scope names row) (changed.methodTypes other names row)
  property : ∀ names row, Simulates (leeway.property row)
    (metadata.propertyTypes scope names row) (changed.propertyTypes other names row)
  event : ∀ row handler, metadata.tables.coded .event row 2 .typeDefOrRef = .ok handler →
    Simulates (leeway.event row) (handlerType scope handler) (handlerType other handler)

namespace Parallel

variable {leeway : Leeway} {metadata changed : ImageMetadata} {scope other : TypeScope}
  (h : Parallel leeway metadata changed scope other)

include h

/-- What is read for every row of a table is related row by row. -/
theorem mapM_rows {α : Type} {R : Nat → α → α → Prop} {f g : Nat → Except Error α}
    (table : TableId) (hrow : ∀ row, Simulates (R row) (f row) (g row)) :
    Simulates (fun before after => Rowwise R before.toArray after.toArray)
      ((metadata.rows table).mapM f) ((changed.rows table).mapM g) := by
  have hitems : Simulates (Itemwise fun index => R (index + 1)) ((metadata.rows table).mapM f)
      ((metadata.rows table).mapM g) := by
    refine Simulates.mapM fun index row hat => ?_
    obtain ⟨hlt, hrange⟩ := List.getElem?_eq_some_iff.mp hat
    have hnumber : 1 + 1 * index = row := (List.getElem_range' _).symm.trans hrange
    rw [show row = index + 1 by omega]
    exact hrow (index + 1)
  rw [h.same.rows]
  intro before hbefore
  obtain ⟨after, hafter, hlength, hall⟩ := hitems before hbefore
  exact ⟨after, hafter, by simpa using hlength, fun index x y hx hy =>
    hall index x y (by simpa using hx) (by simpa using hy)⟩

/-- Types are given what they inherit from before there are members. -/
theorem addHierarchy {m : CodeModule} (hfields : m.fields = #[]) (hmethods : m.methods = #[])
    (hproperties : m.properties = #[]) (hevents : m.events = #[]) :
    Simulates leeway.Within (metadata.addHierarchy scope m) (changed.addHierarchy other m) := by
  unfold ImageMetadata.addHierarchy
  refine Simulates.bind_same h.same.implementations fun implementations himplementations => ?_
  refine (h.mapM_rows .typeDef fun row => h.type m himplementations row).bind ?_
  intro before after htypes
  refine Simulates.pure
    { rest := rfl, types := htypes, fields := ?_, methods := ?_, properties := ?_, events := ?_ }
  · dsimp only
    rw [hfields]
    exact .empty
  · dsimp only
    rw [hmethods]
    exact .empty
  · dsimp only
    rw [hproperties]
    exact .empty
  · dsimp only
    rw [hevents]
    exact .empty

/-- Fields are read side by side. -/
theorem addFields {before after : CodeModule} (hwithin : leeway.Within before after) :
    Simulates leeway.Within (metadata.addFields scope before) (changed.addFields other after) := by
  unfold ImageMetadata.addFields
  refine Simulates.bind_same ?_ fun owners _ => ?_
  · rw [hwithin.ownersFromLists fun _ _ _ hxy => by rw [hxy.1], h.same.rowCount]
  refine (h.mapM_rows (R := leeway.Fields) .field fun row => ?_).bind ?_
  · refine Simulates.bind_same rfl fun declaringType _ => ?_
    refine Simulates.bind_same (h.same.string (by decide) row) fun name _ => ?_
    refine Simulates.bind_same (h.same.value (by decide) row) fun flags _ => ?_
    rw [hwithin.typeGenerics]
    exact (h.field _ row).bind fun type other htype => Simulates.pure ⟨rfl, htype⟩
  · intro fields others hfields
    exact Simulates.pure
      { hwithin with rest := by rw [hwithin.rest], fields := hfields }

/-- Methods are read side by side. -/
theorem addMethods {before after : CodeModule} (hwithin : leeway.Within before after) :
    Simulates leeway.Within (metadata.addMethods scope before)
      (changed.addMethods other after) := by
  unfold ImageMetadata.addMethods
  refine Simulates.bind_same ?_ fun owners _ => ?_
  · rw [hwithin.ownersFromLists fun _ _ _ hxy => by rw [hxy.1], h.same.rowCount]
  refine Simulates.bind_same ?_ fun generics _ => ?_
  · rw [h.same.rows, h.same.genericParameter]
  refine (h.mapM_rows (R := leeway.Methods) .methodDef fun row => ?_).bind ?_
  · refine Simulates.bind_same rfl fun declaringType _ => ?_
    rw [hwithin.typeGenerics]
    refine (h.method _ row).bind fun types others htypes => ?_
    refine Simulates.bind_same (h.same.listRange (by decide) row .param) fun range hrange => ?_
    refine (htypes range hrange).bind fun named renamed hnamed => ?_
    refine Simulates.bind_same (h.same.string (by decide) row) fun name _ => ?_
    refine Simulates.bind_same (h.same.value (by decide) row) fun flags _ => ?_
    exact Simulates.pure ⟨rfl, hnamed⟩
  · intro methods others hmethods
    exact Simulates.pure { hwithin with rest := by rw [hwithin.rest], methods := hmethods }

/-- Properties are read side by side. -/
theorem addProperties {before after : CodeModule} (hwithin : leeway.Within before after) :
    Simulates leeway.Within (metadata.addProperties scope before)
      (changed.addProperties other after) := by
  unfold ImageMetadata.addProperties
  refine Simulates.bind_same (h.same.ownersFromMap (by decide) (by decide) (by decide))
    fun owners _ => ?_
  refine (h.mapM_rows (R := leeway.Properties) .property fun row => ?_).bind ?_
  · refine Simulates.bind_same rfl fun declaringType _ => ?_
    rw [hwithin.typeGenerics]
    refine (h.property _ row).bind fun types others htypes => ?_
    refine Simulates.bind_same (h.same.string (by decide) row) fun name _ => ?_
    refine Simulates.bind_same (h.same.value (by decide) row) fun flags _ => ?_
    exact Simulates.pure ⟨rfl, htypes⟩
  · intro properties others hproperties
    have hlisted (index : Nat) :
        (others.filter (·.declaringType.row == index + 1)).map PropertyDefinition.token =
          (properties.filter (·.declaringType.row == index + 1)).map PropertyDefinition.token :=
      hproperties.map_filter_eq fun _ _ _ hxy => by rw [hxy.1]; exact ⟨rfl, rfl⟩
    refine Simulates.pure
      { hwithin with rest := by rw [hwithin.rest], properties := hproperties, types := ?_ }
    simp only [hlisted]
    exact hwithin.types.mapIdx fun row x y hxy => ⟨by rw [hxy.1], hxy.2⟩

/-- Events are read side by side. -/
theorem addEvents {before after : CodeModule} (hwithin : leeway.Within before after) :
    Simulates leeway.Within (metadata.addEvents scope before)
      (changed.addEvents other after) := by
  unfold ImageMetadata.addEvents
  refine Simulates.bind_same (h.same.ownersFromMap (by decide) (by decide) (by decide))
    fun owners _ => ?_
  refine (h.mapM_rows (R := leeway.Events) .event fun row => ?_).bind ?_
  · refine Simulates.bind_same rfl fun declaringType _ => ?_
    refine Simulates.bind_same (h.same.coded (by decide) row _) fun handler hhandler => ?_
    have htype := h.event row handler hhandler
    unfold handlerType at htype
    dsimp only
    refine Simulates.join htype fun type other hevent => ?_
    refine Simulates.bind_same (h.same.string (by decide) row) fun name _ => ?_
    refine Simulates.bind_same (h.same.value (by decide) row) fun flags _ => ?_
    exact Simulates.pure ⟨rfl, hevent⟩
  · intro events others hevents
    have hlisted (index : Nat) :
        (others.filter (·.declaringType.row == index + 1)).map EventDefinition.token =
          (events.filter (·.declaringType.row == index + 1)).map EventDefinition.token :=
      hevents.map_filter_eq fun _ _ _ hxy => by rw [hxy.1]; exact ⟨rfl, rfl⟩
    refine Simulates.pure
      { hwithin with rest := by rw [hwithin.rest], events := hevents, types := ?_ }
    simp only [hlisted]
    exact hwithin.types.mapIdx fun row x y hxy => ⟨by rw [hxy.1], hxy.2⟩

end Parallel

namespace SameButSignatures

variable {leeway : Leeway} {metadata changed : ImageMetadata}
  (h : metadata.SameButSignatures changed)

include h

theorem addAccessors {before after : CodeModule} (hwithin : leeway.Within before after) :
    Simulates leeway.Within (metadata.addAccessors before) (changed.addAccessors after) := by
  unfold ImageMetadata.addAccessors
  rw [h.rows]
  refine Simulates.foldlM hwithin fun before after row hwithin => ?_
  refine Simulates.bind_same (h.value (by decide) row) fun bits _ => ?_
  split
  · exact Simulates.pure hwithin
  · refine Simulates.bind_same (h.value (by decide) row) fun method _ => ?_
    refine Simulates.bind_same (h.coded (by decide) row _) fun owner _ => ?_
    exact Simulates.pure (hwithin.linkAccessor _ _ owner)

theorem addConstants {before after : CodeModule} (hwithin : leeway.Within before after) :
    Simulates leeway.Within (metadata.addConstants before) (changed.addConstants after) := by
  unfold ImageMetadata.addConstants
  rw [h.rows]
  refine Simulates.foldlM hwithin fun before after row hwithin => ?_
  refine Simulates.bind_same (h.coded (by decide) row _) fun parent _ => ?_
  split
  · exact Simulates.pure hwithin
  · refine Simulates.bind_same (h.value (by decide) row) fun elementType _ => ?_
    refine Simulates.bind_same (h.blob (by decide) row) fun blob _ => ?_
    refine Simulates.bind_same rfl fun value? _ => ?_
    split
    · exact Simulates.pure hwithin
    · split
      · exact Simulates.pure hwithin
      · exact Simulates.pure (hwithin.withConstant _ _)

/-- An image that differs from one that loads in signatures only loads as well, if its constructed
types can be read and its other signatures stand for types that differ as far as they may. -/
theorem toModule
    (hconstructed : Simulates
      (fun blobs others => ∀ definitions references, Parallel leeway metadata changed
        ⟨definitions, references, blobs.toArray⟩ ⟨definitions, references, others.toArray⟩)
      metadata.constructed changed.constructed) (name : String) :
    Simulates leeway.Within (metadata.toModule name) (changed.toModule name) := by
  unfold ImageMetadata.toModule
  refine Simulates.bind_same (h.moduleHead name) fun head _ => ?_
  refine Simulates.bind_same h.assembly? fun assembly _ => ?_
  refine Simulates.bind_same ?_ fun references _ => ?_
  · rw [h.rows, funext h.reference]
  refine Simulates.bind_same ?_ fun resources _ => ?_
  · rw [h.rows, funext (h.resource references.toArray)]
  refine Simulates.bind_same (h.typeReferences _) fun typeReferences _ => ?_
  refine Simulates.bind_same h.typeSkeletons fun types _ => ?_
  rw [h.runtimeVersion, h.entryPoint]
  refine hconstructed.bind fun blobs others hparallel => ?_
  refine ((hparallel _ _).addHierarchy (by rfl) (by rfl) (by rfl) (by rfl)).bind ?_
  refine fun before after hwithin => ((hparallel _ _).addFields hwithin).bind ?_
  refine fun before after hwithin => ((hparallel _ _).addMethods hwithin).bind ?_
  refine fun before after hwithin => ((hparallel _ _).addProperties hwithin).bind ?_
  refine fun before after hwithin => ((hparallel _ _).addEvents hwithin).bind ?_
  refine fun before after hwithin => (h.addAccessors hwithin).bind ?_
  exact fun before after hwithin => h.addConstants hwithin

end SameButSignatures

end ImageMetadata
end AssemblyBrowser
