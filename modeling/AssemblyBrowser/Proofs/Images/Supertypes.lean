import AssemblyBrowser.Proofs.Images.Names
import AssemblyBrowser.Proofs.Images.Types

/-!
# Signatures stand for names

When the types of a module and its references have names, every token in a
signature stands for one of them. The tokens of base types do so as well, and the
kind of a type follows from the name of its base.
-/

namespace AssemblyBrowser

/-!
## Resolving
-/

section Resolving

variable {named : Token → Except Error TypeExpr} {nameOf : Token → TypeName}

mutual

/-- A signature is resolved to the type that it stands for if its tokens are. -/
theorem TypeSignature.resolve_eq : ∀ signature : TypeSignature,
    (∀ token ∈ signature.tokens, named token = .ok (.named (nameOf token))) →
      TypeScope.resolve named {} signature = .ok (signature.shown nameOf)
  | .primitive _, _ => rfl
  | .classType _, h => h _ List.mem_cons_self
  | .valueType _, h => h _ List.mem_cons_self
  | .typeParameter _, _ => rfl
  | .methodParameter _, _ => rfl
  | .functionPointer _ _ _ _, _ => rfl
  | .vector element, h => by rw [TypeScope.resolve, resolve_eq element h]; rfl
  | .array element _, h => by rw [TypeScope.resolve, resolve_eq element h]; rfl
  | .pointer target, h => by rw [TypeScope.resolve, resolve_eq target h]; rfl
  | .reference target, h => by rw [TypeScope.resolve, resolve_eq target h]; rfl
  | .generic base arguments, h => by
      have hbase := resolve_eq base fun token hmem => h token (List.mem_append_left _ hmem)
      have harguments := resolveAll_eq arguments fun token hmem =>
        h token (List.mem_append_right _ hmem)
      rw [TypeScope.resolve, hbase, Outcome.ok_bind, harguments, Outcome.ok_bind, shown]
      cases base.shown nameOf <;> rfl

theorem TypeSignature.resolveAll_eq : ∀ signatures : List TypeSignature,
    (∀ token ∈ allTokens signatures, named token = .ok (.named (nameOf token))) →
      TypeScope.resolveAll named {} signatures = .ok (allShown nameOf signatures)
  | [], _ => rfl
  | first :: rest, h => by
      have hfirst := resolve_eq first fun token hmem => h token (List.mem_append_left _ hmem)
      have hrest := resolveAll_eq rest fun token hmem => h token (List.mem_append_right _ hmem)
      rw [TypeScope.resolveAll, hfirst, Outcome.ok_bind, hrest]
      rfl

end

end Resolving

namespace ModuleDraft

variable {module : ModuleDraft}

/-- What the type tokens of a module stand for. -/
def scope (module : ModuleDraft) : TypeScope where
  definitions := ((List.range' 1 module.types.length).map module.definitionName).toArray
  references := ((List.range' 1 module.typeReferences.length).map module.referenceName).toArray
  constructed := #[]

theorem rowOf?_map_range' {α : Type} (f : Nat → α) {count : Nat} {token : Token}
    (hone : 1 ≤ token.row) (hle : token.row ≤ count) :
    TypeScope.rowOf? ((List.range' 1 count).map f).toArray token = some (f token.row) := by
  rw [TypeScope.rowOf?, if_neg (by omega), List.getElem?_toArray, List.getElem?_map,
    List.getElem?_range' (by omega), Option.map_some, Nat.one_mul, Nat.add_sub_cancel' hone]

theorem scope_token {token : Token} (h : module.HasType token) (generics : GenericNames) :
    module.scope.token generics token = .ok (.named (module.nameOf token)) := by
  unfold TypeScope.token TypeScope.resolveToken TypeScope.name? nameOf
  rcases h with ⟨htable, hone, hle⟩ | ⟨htable, hone, hle⟩
  · rw [if_neg (by rw [htable]; decide), if_pos htable, if_pos htable, scope,
      rowOf?_map_range' _ hone hle]
  · have hother : token.table ≠ TableId.typeDef.number := by
      rw [htable]
      decide
    rw [if_neg (by rw [htable]; decide), if_neg hother, if_neg hother, if_pos htable, scope,
      rowOf?_map_range' _ hone hle]

theorem scope_tokenOrObject {token : Token} (h : module.HasType token) (generics : GenericNames) :
    module.scope.tokenOrObject generics token = .ok (.named (module.nameOf token)) := by
  unfold TypeScope.tokenOrObject
  rw [scope_token h]
  rfl

theorem scope_signatureOrObject {signature : TypeSignature} (h : module.Shows signature) :
    module.scope.signatureOrObject {} (.ok signature) =
      .ok (signature.shown module.nameOf) := by
  have hresolve : module.scope.signature {} signature = .ok (signature.shown module.nameOf) :=
    TypeSignature.resolve_eq signature fun token hmem => scope_token (h.tokens token hmem) {}
  unfold TypeScope.signatureOrObject
  rw [Except.bind, hresolve]
  rfl

/-!
## Base types
-/

/-- The cell of a base type names it. -/
theorem decode_baseCell {base : Option Token} (h : ∀ token ∈ base, module.HasType token) :
    CodedIndex.typeDefOrRef.decode (baseCell base) = base.getD Token.zero := by
  cases base with
  | none => rfl
  | some token =>
      have hdecode {tag : Nat} {table : TableId} (htable : token.table = table.number)
          (htag : CodedIndex.typeDefOrRef.tables[tag]? = some (some table)) (hrow : token.row ≠ 0) :
          CodedIndex.typeDefOrRef.decode (CodedIndex.typeDefOrRef.encode tag token.row) =
            token := by
        rw [CodedIndex.decode_encode htag hrow, TableId.token, ← htable,
          Token.ofParts_table_row]
      rcases h token rfl with ⟨htable, hone, -⟩ | ⟨htable, hone, -⟩
      · rw [baseCell, if_pos htable]
        exact hdecode htable rfl (by omega)
      · have hother : token.table ≠ TableId.typeDef.number := by
          rw [htable]
          decide
        rw [baseCell, if_neg hother]
        exact hdecode htable rfl (by omega)

theorem hasType_not_null {token : Token} (h : module.HasType token) : token.isNull = false := by
  have hone : 1 ≤ token.row := by
    rcases h with ⟨-, hone, -⟩ | ⟨-, hone, -⟩ <;> exact hone
  rw [Token.isNull, beq_eq_false_iff_ne]
  omega

/-- A type with its base type and its kind. -/
def derivedType (module : ModuleDraft) (type : TypeDraft) (row : Nat) : TypeDefinition :=
  { module.linkedType type row with
    kind := .classify type.flags (type.base.map module.nameOf)
      (NamedRow.fullName module.typeNames row)
    base := type.base.map fun token => .named (module.nameOf token) }

def derivedTypes (module : ModuleDraft) : List TypeDefinition :=
  (numbered module.types).map fun (type, row) => module.derivedType type row

end ModuleDraft

namespace ImageDraft

section Hierarchy

variable {metadata : ImageMetadata} {draft : ImageDraft} {module : ModuleDraft}
  {order : List AccessorDraft} {m : CodeModule} (holds : Holds metadata draft)
  (encodes : draft.Encodes module order) (wellFormed : module.WellFormed)
  (htypes : m.types = module.linkedTypes.toArray)

include holds encodes wellFormed htypes

theorem derivedType_eq {type : TypeDraft} {row : Nat} {cells : List Nat}
    (htype : itemAt? module.types row = some type)
    (hform : draft.TypeRow module.types row type cells)
    (hrow : RowHolds metadata .typeDef row cells) :
    metadata.typeWithHierarchy module.scope m [] row = .ok (module.derivedType type row) := by
  have hbounds := itemAt?_le htype
  have hsmall := types_lt holds encodes
  have hbase := (wellFormed.types type (itemAt?_mem htype)).base
  have hat := (itemAt?_eq_some.mp (ModuleDraft.itemAt?_typesOf htype module.linkedType)).2
  have hitem : Bounded.item m.types (row - 1) = .ok (module.linkedType type row) := by
    rw [Bounded.item_eq_iff, htypes, List.getElem?_toArray]
    exact hat
  have hname : m.fullName (TableId.typeDef.token row) =
      NamedRow.fullName module.typeNames row :=
    ModuleDraft.fullName_eq module.linkedType_keepsNames htypes wellFormed.typeNesting
      (Nat.lt_trans hsmall (by decide)) hbounds
  have hextended : metadata.tables.coded .typeDef row 3 .typeDefOrRef =
      .ok (type.base.getD Token.zero) := by
    cases hform with
    | mk =>
        unfold TableStream.coded
        rw [hrow.value rfl, Outcome.ok_bind, ModuleDraft.decode_baseCell hbase]
        rfl
  have hsupertypes (base : Option TypeExpr) :
      ImageMetadata.typeWithSupertypes module.scope m (module.linkedType type row) base [] =
        .ok { module.linkedType type row with
          base
          kind := .classify type.flags (base.bind TypeExpr.typeName?)
            (NamedRow.fullName module.typeNames row) } := by
    rw [← hname]
    rfl
  unfold ImageMetadata.typeWithHierarchy
  rw [Bounded.subtract_eq_ok hbounds.1, Outcome.ok_bind, hextended, Outcome.ok_bind, hitem,
    Outcome.ok_bind]
  dsimp only
  rw [List.filter_nil, List.map_nil]
  cases hown : type.base with
  | none =>
      rw [Option.getD_none, if_pos (by decide), hsupertypes, ModuleDraft.derivedType, hown]
      rfl
  | some token =>
      have htoken := hbase token hown
      rw [Option.getD_some, if_neg (by rw [ModuleDraft.hasType_not_null htoken]; decide),
        ModuleDraft.scope_tokenOrObject htoken, Outcome.ok_bind, hsupertypes,
        ModuleDraft.derivedType, hown]
      rfl

theorem addHierarchy_eq : metadata.addHierarchy module.scope m =
    .ok { m with types := module.derivedTypes.toArray } := by
  have himplementations : metadata.implementations = .ok [] := by
    unfold ImageMetadata.implementations
    rw [rows_unused holds (encodes.unused .interfaceImpl (by decide))]
    rfl
  have hread : (metadata.rows .typeDef).mapM (metadata.typeWithHierarchy module.scope m []) =
      .ok module.derivedTypes :=
    mapM_written holds encodes.types fun row type cells htype hform hrow =>
      derivedType_eq holds encodes wellFormed htypes htype hform hrow
  unfold ImageMetadata.addHierarchy
  rw [himplementations, Outcome.ok_bind, hread]
  rfl

end Hierarchy

end ImageDraft
end AssemblyBrowser
