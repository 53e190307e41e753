import AssemblyBrowser.Listing.CSharp
import AssemblyBrowser.Tree.Node
import Mathlib.Data.List.Basic

/-!
# The accessibility of properties and events

A property or an event has no accessibility of its own. Its declaration in C# shows
that of the most widely usable accessor, and its node shows that of the first one. The
two agree if and only if no later accessor can be used more widely than the first.
-/

namespace AssemblyBrowser

/-!
## Accessibility in modifiers
-/

namespace Accessibility

/-- Modifiers do not tell two kinds of private access apart. -/
theorem ofAccessibility_eq_iff {first second : Accessibility} :
    Modifiers.ofAccessibility first = .ofAccessibility second ↔
      max first.rank privateAccess.rank = max second.rank privateAccess.rank := by
  cases first <;> cases second <;> decide

end Accessibility

namespace Modifiers

/-- The modifiers that say who may use a definition. -/
def access (modifiers : Modifiers) : Modifiers := ⟨modifiers.bits &&& 0xF⟩

theorem access_union (first second : Modifiers) :
    (first.union second).access = first.access.union second.access :=
  congrArg Modifiers.mk (Nat.and_or_distrib_right ..)

theorem union_none (modifiers : Modifiers) : modifiers.union none = modifiers :=
  congrArg Modifiers.mk (Nat.or_zero _)

theorem access_ofAccessibility (accessibility : Accessibility) :
    (ofAccessibility accessibility).access = ofAccessibility accessibility := by
  cases accessibility <;> rfl

/-- Nothing else that is said of a method is among these. -/
theorem access_ofMethod (method : MethodDefinition) :
    (ofMethod method).access = ofAccessibility method.accessibility := by
  have hstatic : (when method.isStatic staticBit).access = none := by
    cases method.isStatic <;> rfl
  have hkind : (if method.isAbstract then abstractBit else if method.isOverride then overrideBit
      else if method.isVirtual then virtualBit else none).access = none := by
    split_ifs <;> rfl
  rw [ofMethod, access_union, access_union, access_ofAccessibility, hstatic, hkind, union_none,
    union_none]

end Modifiers

/-!
## Accessors that decide
-/

namespace Entity

/-- The accessors that a property or an event is declared by. -/
def accessors : Entity → List (Option Token)
  | .property definition => [definition.getter, definition.setter]
  | .event definition => [definition.adder, definition.remover]
  | _ => []

end Entity

namespace CodeModule

/-- The accessors of a property or an event that can be found. -/
def foundAccessors (m : CodeModule) (entity : Entity) : List MethodDefinition :=
  entity.accessors.filterMap (·.bind m.method?)

theorem accessorModifiers_eq {m : CodeModule} {entity : Entity} {first : MethodDefinition}
    {rest : List MethodDefinition} (h : m.foundAccessors entity = first :: rest) :
    m.accessorModifiers entity.accessors = .ofMethod first := by
  rw [accessorModifiers, ← foundAccessors, h]
  rfl

end CodeModule

namespace CSharp

theorem wider_eq_or (first second : MethodDefinition) :
    wider first second = first ∨ wider first second = second := by
  unfold wider
  split_ifs
  · exact .inl rfl
  · exact .inr rfl

theorem rank_le_wider (first second : MethodDefinition) :
    first.accessibility.rank ≤ (wider first second).accessibility.rank ∧
      second.accessibility.rank ≤ (wider first second).accessibility.rank := by
  unfold wider
  split_ifs <;> omega

/-- No other method of the list can be used more widely than this one. -/
structure Widest (methods : List MethodDefinition) (widest : MethodDefinition) : Prop where
  mem : widest ∈ methods
  rank_le : ∀ other ∈ methods, other.accessibility.rank ≤ widest.accessibility.rank

theorem widest_foldl (first : MethodDefinition) (rest : List MethodDefinition) :
    Widest (first :: rest) (rest.foldl wider first) := by
  induction rest generalizing first with
  | nil =>
      refine ⟨List.mem_singleton_self _, fun other hmem => ?_⟩
      obtain rfl := List.mem_singleton.mp hmem
      exact Nat.le_refl _
  | cons second rest ih =>
      have hrest := ih (wider first second)
      obtain ⟨hfirst, hsecond⟩ := rank_le_wider first second
      have hwider := hrest.rank_le _ List.mem_cons_self
      refine ⟨?_, ?_⟩
      · rcases List.mem_cons.mp hrest.mem with hmem | hmem
        · rw [List.foldl_cons, hmem]
          rcases wider_eq_or first second with heq | heq <;> rw [heq]
          · exact List.mem_cons_self
          · exact List.mem_cons_of_mem _ List.mem_cons_self
        · exact List.mem_cons_of_mem _ (List.mem_cons_of_mem _ hmem)
      · simp only [List.forall_mem_cons]
        exact ⟨Nat.le_trans hfirst hwider, Nat.le_trans hsecond hwider, fun other hmem =>
          hrest.rank_le other (List.mem_cons_of_mem _ hmem)⟩

theorem accessorModifiers_eq {m : CodeModule} {owner : TypeDefinition} {entity : Entity}
    {first : MethodDefinition} {rest : List MethodDefinition}
    (h : m.foundAccessors entity = first :: rest) :
    accessorModifiers m owner entity.accessors =
      methodModifiers owner (rest.foldl wider first) := by
  rw [accessorModifiers, widestAccessor?, ← CodeModule.foundAccessors, h]
  rfl

/-- The words of a method behind its accessibility that are not part of its signature. -/
def storageWords (method : MethodDefinition) : List String :=
  (if method.isStatic then ["static"] else [])
    ++ (if method.isAbstract then ["abstract"]
        else if method.isOverride then ["override"]
        else if method.isVirtual then ["virtual"]
        else [])

theorem methodModifiers_eq {owner : TypeDefinition} (h : owner.kind ≠ .interfaceType)
    (method : MethodDefinition) :
    methodModifiers owner method = method.accessibility.csharp :: storageWords method := by
  rw [methodModifiers, if_neg h]
  rfl

/-- The words of a property or an event that do not come from its accessors. -/
def ownWords : Entity → List String
  | .property property =>
      [property.type.text,
        if property.parameters.isEmpty then property.name
        else
          "this[" ++ numbered (fun index (type : TypeExpr) => type.text ++ s!" index{index}")
            property.parameters ++ "]",
        "\x7b " ++ String.intercalate " "
          ((if property.getter.isSome then ["get;"] else [])
            ++ (if property.setter.isSome then ["set;"] else [])) ++ " \x7d"]
  | .event event => ["event", event.type.text, event.name ++ ";"]
  | _ => []

/-- The declaration of a property or an event. -/
def declaration (m : CodeModule) (owner : TypeDefinition) : Entity → String
  | .property property => propertyDeclaration m owner property
  | .event event => eventDeclaration m owner event
  | _ => ""

theorem declaration_eq {m : CodeModule} {entity : Entity} (h : m.foundAccessors entity ≠ [])
    (owner : TypeDefinition) : declaration m owner entity =
      String.intercalate " " (accessorModifiers m owner entity.accessors ++ ownWords entity) := by
  cases entity with
  | property => rfl
  | event => rfl
  | _ => exact absurd rfl h

end CSharp

namespace PlacedModule

variable {place : PlacedModule} {owner : TypeDefinition} {entity : Entity}

theorem modifiers_entityNode (h : place.code.foundAccessors entity ≠ []) :
    (place.entityNode entity).modifiers = place.code.accessorModifiers entity.accessors := by
  cases entity with
  | property => rfl
  | event => rfl
  | _ => exact absurd rfl h

/-- Outside interfaces the declaration of a property or an event shows the accessibility of its
widest accessor. The node shows it if and only if no accessor can be used more widely than the
first that can be found, where private access and access by the compiler only are the same. -/
theorem accessibility_agrees_iff (howner : owner.kind ≠ .interfaceType)
    (hfound : place.code.foundAccessors entity ≠ []) :
    ∃ widest, CSharp.Widest (place.code.foundAccessors entity) widest ∧
      CSharp.declaration place.code owner entity = String.intercalate " "
        (widest.accessibility.csharp :: (CSharp.storageWords widest ++ CSharp.ownWords entity)) ∧
      ((place.entityNode entity).modifiers.access = .ofAccessibility widest.accessibility ↔
        ∀ other ∈ place.code.foundAccessors entity, other.accessibility.rank ≤
          max ((place.code.foundAccessors entity).head hfound).accessibility.rank
            Accessibility.privateAccess.rank) := by
  obtain ⟨first, rest, hlist⟩ := List.exists_cons_of_ne_nil hfound
  have hwidest := CSharp.widest_foldl first rest
  refine ⟨rest.foldl CSharp.wider first, hlist ▸ hwidest, ?_, ?_⟩
  · rw [CSharp.declaration_eq hfound, CSharp.accessorModifiers_eq hlist,
      CSharp.methodModifiers_eq howner, List.cons_append]
  · rw [modifiers_entityNode hfound, CodeModule.accessorModifiers_eq hlist,
      Modifiers.access_ofMethod, Accessibility.ofAccessibility_eq_iff]
    simp only [hlist, List.head_cons]
    have hfirst := hwidest.rank_le first List.mem_cons_self
    constructor
    · intro hsame other hmem
      have hother := hwidest.rank_le other hmem
      omega
    · intro hall
      have hwide := hall _ hwidest.mem
      omega

section Sample

def countClass : TypeDefinition :=
  { token := TableId.typeDef.token 1, namespaceName := "N", name := "C", flags := 1
    properties := [TableId.property.token 1]
    methods := [TableId.methodDef.token 1, TableId.methodDef.token 2] }

def countProperty : PropertyDefinition :=
  { token := TableId.property.token 1, name := "Count", declaringType := countClass.token
    type := .primitive .int32, getter := some (TableId.methodDef.token 1)
    setter := some (TableId.methodDef.token 2) }

/-- A class with a property whose accessors have these flags. -/
def countModule (getterFlags setterFlags : Nat) : CodeModule :=
  { name := "M", runtimeVersion := "", types := #[countClass], properties := #[countProperty]
    methods := #[
      { token := TableId.methodDef.token 1, name := "get_Count", flags := getterFlags
        declaringType := countClass.token, returnType := .primitive .int32, parameters := []
        role := some .getter },
      { token := TableId.methodDef.token 2, name := "set_Count", flags := setterFlags
        declaringType := countClass.token, returnType := .void
        parameters := [{ type := .primitive .int32 }], role := some .setter }] }

def countPlace (getterFlags setterFlags : Nat) : PlacedModule :=
  { archivePath := "M.dll", containerPath := none, code := countModule getterFlags setterFlags }

/-- The getter is public, and the setter is private. -/
theorem accessibility_agrees_iff_public_getter :
    countClass.kind ≠ .interfaceType ∧
      (countPlace 6 1).code.foundAccessors (.property countProperty) ≠ [] ∧
      ∃ widest,
        CSharp.Widest ((countPlace 6 1).code.foundAccessors (.property countProperty)) widest ∧
        CSharp.declaration (countPlace 6 1).code countClass (.property countProperty) =
          String.intercalate " " (widest.accessibility.csharp ::
            (CSharp.storageWords widest ++ CSharp.ownWords (.property countProperty))) ∧
        ((countPlace 6 1).entityNode (.property countProperty)).modifiers.access =
          .ofAccessibility widest.accessibility := by
  have hclass : countClass.kind ≠ .interfaceType := by decide
  have hfound : (countPlace 6 1).code.foundAccessors (.property countProperty) ≠ [] :=
    List.cons_ne_nil _ _
  obtain ⟨widest, hwidest, hdeclaration, hagrees⟩ := accessibility_agrees_iff hclass hfound
  refine ⟨hclass, hfound, widest, hwidest, hdeclaration, hagrees.mpr fun other hmem => ?_⟩
  have hpublic : ∀ accessibility : Accessibility,
      accessibility.rank ≤
        max Accessibility.publicAccess.rank Accessibility.privateAccess.rank := by
    intro accessibility
    cases accessibility <;> decide
  exact hpublic other.accessibility

/-- The getter is private, and the setter is public. -/
theorem node_shows_private_getter :
    countClass.kind ≠ .interfaceType ∧
      (countPlace 1 6).code.foundAccessors (.property countProperty) ≠ [] ∧
      CSharp.declaration (countPlace 1 6).code countClass (.property countProperty) =
        "public int Count \x7b get; set; \x7d" ∧
      ((countPlace 1 6).entityNode (.property countProperty)).modifiers.access =
        .ofAccessibility .privateAccess ∧
      Modifiers.ofAccessibility .privateAccess ≠ .ofAccessibility .publicAccess := by
  refine ⟨by decide, List.cons_ne_nil _ _, ?_, ?_, ?_⟩ <;> decide +kernel

end Sample

end PlacedModule
end AssemblyBrowser
