import AssemblyBrowser.Proofs.TypeTrees

/-!
# Declarations in listings

The listing of a type declares that type and types inside it, each in a line of its own.
Lines of a text may read the same, so the listing is written a second time with a mark
where a line declares a type. Without the marks it is the listing.
-/

namespace AssemblyBrowser

/-!
## Marks
-/

/-- A piece of a listing in which the lines that declare types are marked. -/
inductive MarkedSource where
  | plain (piece : Source)
  | declaration (type : TypeDefinition)
  | block (body : List MarkedSource) (remark : String)

namespace MarkedSource

variable (header : TypeDefinition → String)

mutual
/-- The piece without marks; `header` is the line that declares a type. -/
def source : MarkedSource → Source
  | plain piece => piece
  | declaration type => .line (header type)
  | block body remark => .block (sources body) remark

def sources : List MarkedSource → List Source
  | [] => []
  | piece :: rest => source piece :: sources rest
end

mutual
/-- The types that a piece declares, in order. -/
def declared : MarkedSource → List TypeDefinition
  | plain _ => []
  | declaration type => [type]
  | block body _ => declaredIn body

def declaredIn : List MarkedSource → List TypeDefinition
  | [] => []
  | piece :: rest => declared piece ++ declaredIn rest
end

theorem sources_append (first second : List MarkedSource) :
    sources header (first ++ second) = sources header first ++ sources header second := by
  induction first with
  | nil => rfl
  | cons piece rest ih => simp [sources, ih]

theorem declaredIn_append (first second : List MarkedSource) :
    declaredIn (first ++ second) = declaredIn first ++ declaredIn second := by
  induction first with
  | nil => rfl
  | cons piece rest ih => simp [declaredIn, ih]

/-- Pieces in which nothing is declared. -/
def plainly (pieces : List Source) : List MarkedSource := pieces.map plain

@[simp] theorem sources_plainly (pieces : List Source) :
    sources header (plainly pieces) = pieces := by
  induction pieces with
  | nil => rfl
  | cons piece rest ih => exact congrArg (piece :: ·) ih

@[simp] theorem declaredIn_plainly (pieces : List Source) : declaredIn (plainly pieces) = [] := by
  induction pieces with
  | nil => rfl
  | cons piece rest ih => exact ih

end MarkedSource

/-!
## Types in a tree
-/

namespace TypeTree

mutual
/-- The types in a tree that are shown: the one at the root, and those inside a type that is
opened. -/
def shown (opens : TypeDefinition → Bool) : TypeTree → List TypeDefinition
  | .node type nested => type :: if opens type then shownIn opens nested else []

def shownIn (opens : TypeDefinition → Bool) : List TypeTree → List TypeDefinition
  | [] => []
  | tree :: rest => shown opens tree ++ shownIn opens rest
end

theorem shownIn_eq_flatMap (opens : TypeDefinition → Bool) (trees : List TypeTree) :
    shownIn opens trees = trees.flatMap (shown opens) := by
  induction trees with
  | nil => rfl
  | cons tree rest ih => rw [shownIn, ih, List.flatMap_cons]

end TypeTree

open MarkedSource

/-!
## Listings in C#
-/

namespace CSharp

/-- The line that declares a type. -/
def declarationLine (m : CodeModule) (type : TypeDefinition) : String :=
  if type.kind = .delegateType then delegateDeclaration m type else typeHeader type

mutual
/-- The declaration of a type with marks. -/
def markedType (m : CodeModule) : TypeTree → List MarkedSource
  | .node type nested =>
      match type.kind with
      | .delegateType => [.declaration type]
      | .enumType =>
          let literals := (type.fields.filterMap m.field?).filter FieldDefinition.isLiteral
          .declaration type ::
            plainly [.block (literals.map fun field => .line (enumLine field)) ""]
      | _ =>
          [.declaration type,
            .block (plainly ((memberLines m type).map .line) ++ markedNested m nested) ""]

def markedNested (m : CodeModule) : List TypeTree → List MarkedSource
  | [] => []
  | type :: rest => .plain (.line "") :: markedType m type ++ markedNested m rest
end

/-- The listing of a type with marks. -/
def markedListing (m : CodeModule) (token : Token) : Except Error (List MarkedSource) := do
  let some type := m.type? token | throw (.typeNotFound token)
  let tree ← m.typeTree showsNested type
  if type.namespaceName.isEmpty then return markedType m tree
  else
    return [.plain (.line ("namespace " ++ type.namespaceName)), .block (markedType m tree) ""]

mutual
theorem sources_markedType (m : CodeModule) :
    (tree : TypeTree) → sources (declarationLine m) (markedType m tree) = typeSource m tree
  | .node type nested => by
      have hnested := sources_markedNested m nested
      rw [markedType, typeSource]
      split <;> simp_all [sources, source, sources_append, declarationLine]

theorem sources_markedNested (m : CodeModule) :
    (trees : List TypeTree) → sources (declarationLine m) (markedNested m trees) =
      nestedSource m trees
  | [] => rfl
  | tree :: rest => by
      have htree := sources_markedType m tree
      have hrest := sources_markedNested m rest
      simp [markedNested, nestedSource, sources, source, sources_append, htree, hrest]
end

mutual
theorem declaredIn_markedType (m : CodeModule) :
    (tree : TypeTree) → declaredIn (markedType m tree) = tree.shown showsNested
  | .node type nested => by
      have hnested := declaredIn_markedNested m nested
      rw [markedType, TypeTree.shown]
      split <;> simp_all [declaredIn, declared, declaredIn_append, showsNested]

theorem declaredIn_markedNested (m : CodeModule) :
    (trees : List TypeTree) →
      declaredIn (markedNested m trees) = TypeTree.shownIn showsNested trees
  | [] => rfl
  | tree :: rest => by
      have htree := declaredIn_markedType m tree
      have hrest := declaredIn_markedNested m rest
      simp [markedNested, TypeTree.shownIn, declaredIn, declared, declaredIn_append, htree, hrest]
end

theorem typeListing_eq (m : CodeModule) (token : Token) :
    typeListing m token = (markedListing m token).map (sources (declarationLine m)) := by
  unfold typeListing markedListing
  cases m.type? token with
  | none => rfl
  | some type =>
      cases htree : m.typeTree showsNested type with
      | error error => simp only [htree]; rfl
      | ok tree =>
          simp only [htree, Outcome.ok_bind]
          split
          · show Except.ok _ = Except.ok _
            rw [sources_markedType]
          · show Except.ok _ = Except.ok _
            simp only [sources, source, sources_markedType]

theorem exists_markedListing {m : CodeModule} {token : Token} {type : TypeDefinition}
    {tree : TypeTree} (htype : m.type? token = some type)
    (htree : m.typeTree showsNested type = .ok tree) :
    ∃ pieces, markedListing m token = .ok pieces ∧
      declaredIn pieces = tree.shown showsNested := by
  simp only [markedListing, htype, htree, Outcome.ok_bind]
  split
  · exact ⟨_, rfl, declaredIn_markedType m tree⟩
  · refine ⟨_, rfl, ?_⟩
    simp [declaredIn, declared, declaredIn_markedType]

end CSharp

/-!
## Listings in IL
-/

namespace Il

mutual
/-- The declaration of a type with marks. -/
def markedType (m : CodeModule) : TypeTree → List MarkedSource
  | .node type nested =>
      .declaration type :: plainly (supertypeLines type)
        ++ [.block (markedNested m nested ++ plainly (memberSource m type)) ""]

def markedNested (m : CodeModule) : List TypeTree → List MarkedSource
  | [] => []
  | type :: rest => markedType m type ++ .plain (.line "") :: markedNested m rest
end

/-- The listing of a type with marks. -/
def markedListing (m : CodeModule) (token : Token) : Except Error (List MarkedSource) := do
  let some type := m.type? token | throw (.typeNotFound token)
  let tree ← m.typeTree (fun _ => true) type
  return markedType m tree

mutual
theorem sources_markedType (m : CodeModule) :
    (tree : TypeTree) → sources (classHeader m) (markedType m tree) = typeSource m tree
  | .node type nested => by
      have hnested := sources_markedNested m nested
      simp [markedType, typeSource, sources, source, sources_append, hnested]

theorem sources_markedNested (m : CodeModule) :
    (trees : List TypeTree) → sources (classHeader m) (markedNested m trees) =
      nestedSource m trees
  | [] => rfl
  | tree :: rest => by
      have htree := sources_markedType m tree
      have hrest := sources_markedNested m rest
      simp [markedNested, nestedSource, sources, source, sources_append, htree, hrest]
end

mutual
theorem declaredIn_markedType (m : CodeModule) :
    (tree : TypeTree) → declaredIn (markedType m tree) = tree.shown fun _ => true
  | .node type nested => by
      have hnested := declaredIn_markedNested m nested
      simp [markedType, TypeTree.shown, declaredIn, declared, declaredIn_append, hnested]

theorem declaredIn_markedNested (m : CodeModule) :
    (trees : List TypeTree) →
      declaredIn (markedNested m trees) = TypeTree.shownIn (fun _ => true) trees
  | [] => rfl
  | tree :: rest => by
      have htree := declaredIn_markedType m tree
      have hrest := declaredIn_markedNested m rest
      simp [markedNested, TypeTree.shownIn, declaredIn, declared, declaredIn_append, htree, hrest]
end

theorem typeListing_eq (m : CodeModule) (token : Token) :
    typeListing m token = (markedListing m token).map (sources (classHeader m)) := by
  unfold typeListing markedListing
  cases m.type? token with
  | none => rfl
  | some type =>
      cases htree : m.typeTree (fun _ => true) type with
      | error error => simp only [htree]; rfl
      | ok tree =>
          simp only [htree, Outcome.ok_bind]
          show Except.ok _ = Except.ok _
          rw [sources_markedType]

theorem exists_markedListing {m : CodeModule} {token : Token} {type : TypeDefinition}
    {tree : TypeTree} (htype : m.type? token = some type)
    (htree : m.typeTree (fun _ => true) type = .ok tree) :
    ∃ pieces, markedListing m token = .ok pieces ∧
      declaredIn pieces = tree.shown fun _ => true := by
  simp only [markedListing, htype, htree, Outcome.ok_bind]
  exact ⟨_, rfl, declaredIn_markedType m tree⟩

end Il

/-!
## Listings in each dialect
-/

namespace Listing

/-- The line that declares a type. -/
def declarationLine (dialect : Dialect) (m : CodeModule) : TypeDefinition → String :=
  if dialect.isIl then Il.classHeader m else CSharp.declarationLine m

/-- The listing of a type with marks. -/
def marked (dialect : Dialect) (m : CodeModule) (token : Token) :
    Except Error (List MarkedSource) :=
  if dialect.isIl then Il.markedListing m token else CSharp.markedListing m token

/-- The text of a type is its listing without the marks. -/
theorem ofType_eq_marked (dialect : Dialect) (m : CodeModule) (token : Token) :
    ofType dialect m token =
      (marked dialect m token).map fun pieces =>
        Source.text (sources (declarationLine dialect m) pieces) := by
  have hmap (outcome : Except Error (List MarkedSource)) (header : TypeDefinition → String) :
      (outcome.map (sources header)).map Source.text =
        outcome.map fun pieces => Source.text (sources header pieces) := by
    cases outcome <;> rfl
  unfold ofType marked declarationLine
  cases dialect.isIl with
  | true =>
      simp only [if_true, Il.typeListing_eq]
      exact hmap _ _
  | false =>
      simp only [Bool.false_eq_true, if_false, CSharp.typeListing_eq]
      exact hmap _ _

/-- The listing of a type declares the types in its tree that the dialect shows. -/
theorem exists_marked {dialect : Dialect} {m : CodeModule} {token : Token} {type : TypeDefinition}
    {tree : TypeTree} (htype : m.type? token = some type)
    (htree : m.typeTree (opensIn dialect) type = .ok tree) :
    ∃ pieces, marked dialect m token = .ok pieces ∧
      declaredIn pieces = tree.shown (opensIn dialect) := by
  unfold marked opensIn at *
  cases hdialect : dialect.isIl with
  | true =>
      rw [hdialect] at htree
      exact Il.exists_markedListing htype htree
  | false =>
      rw [hdialect] at htree
      exact CSharp.exists_markedListing htype htree

end Listing
end AssemblyBrowser
