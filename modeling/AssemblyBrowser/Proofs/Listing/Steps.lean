import AssemblyBrowser.Proofs.Browsing.Agreement
import AssemblyBrowser.Proofs.Listing.Blocks

/-!
# Listings step by step

Here the listings of types and members are written by steps, in the order in which a
declaration is gone through: a block is opened by one step and closed by a later one, and
a delegate, an enumeration and any other type each go their own way between. What the
steps write is the text of the listing. They match, and everything about a nested type or
a member stands in the block of its owner.
-/

namespace AssemblyBrowser

/-!
## Writing types

The dialects write a type in different orders. What they have in common is that a type is
declared, that its members and the types inside it are written, and where.
-/

/-- The definitions that a listing of a type writes, each behind the types around it. -/
inductive ShownPath (m : CodeModule) (members : TypeDefinition → List Entity)
    (opens : TypeDefinition → Bool) : TypeDefinition → List Entity → Prop where
  | type (type : TypeDefinition) : ShownPath m members opens type [.type type]
  | member {type : TypeDefinition} {member : Entity} (hmember : member ∈ members type) :
      ShownPath m members opens type [.type type, member]
  | nested {type inner : TypeDefinition} {path : List Entity} (hopens : opens type = true)
      (hinner : inner ∈ type.nestedTypes.filterMap m.type?)
      (hpath : ShownPath m members opens inner path) :
      ShownPath m members opens type (.type type :: path)

/-- Steps write a definition if one of them is about it. -/
def WritesAbout (steps : List ListingStep) (subject : List Entity) : Prop :=
  ∃ step, ⟨subject, step⟩ ∈ steps

theorem WritesAbout.of_subset {steps others : List ListingStep} {subject : List Entity}
    (h : WritesAbout steps subject) (hsubset : steps ⊆ others) : WritesAbout others subject := by
  obtain ⟨step, hmem⟩ := h
  exact ⟨step, hsubset hmem⟩

theorem WritesAbout.ofMembers (owner : List Entity) {members : List Entity}
    {write : Entity → List WriterStep} {member : Entity} (hmember : member ∈ members)
    (hwrite : write member ≠ []) :
    WritesAbout (ListingStep.ofMembers owner write members) (owner ++ [member]) := by
  obtain ⟨step, hstep⟩ := List.exists_mem_of_ne_nil _ hwrite
  exact ⟨step, List.mem_flatMap.mpr ⟨member, hmember, List.mem_map.mpr ⟨step, hstep, rfl⟩⟩⟩

theorem CodeModule.nested_of_typeTreeWithin {m : CodeModule} {opens : TypeDefinition → Bool}
    {depth : Nat} {type : TypeDefinition} {tree : TypeTree}
    (h : m.typeTreeWithin opens depth type = .ok tree) :
    ∃ nested, tree = .node type nested ∧
      (opens type = true → ∃ depth', ∀ inner ∈ type.nestedTypes.filterMap m.type?,
        ∃ sub ∈ nested, m.typeTreeWithin opens depth' inner = .ok sub) := by
  cases depth with
  | zero => cases h
  | succ depth =>
      rw [typeTreeWithin] at h
      split at h
      case isTrue hopens =>
        obtain ⟨nested, hnested, htree⟩ := Outcome.bind_eq_ok.mp h
        refine ⟨nested, (Outcome.pure_eq_ok.mp htree).symm, fun _ => ⟨depth, ?_⟩⟩
        intro inner hinner
        obtain ⟨index, hindex⟩ := List.mem_iff_getElem?.mp hinner
        obtain ⟨sub, hsub, hok⟩ := Outcome.exists_getElem?_of_mapM hnested hindex
        exact ⟨sub, List.mem_of_getElem? hsub, hok⟩
      case isFalse hopens =>
        exact ⟨[], (Outcome.pure_eq_ok.mp h).symm, fun htrue => absurd htrue hopens⟩

/-- What a dialect has to do to write types with everything in them. -/
structure WritesTypes (members : TypeDefinition → List Entity) (opens : TypeDefinition → Bool)
    (write : List Entity → TypeTree → List ListingStep) : Prop where
  inside (around : List Entity) (tree : TypeTree) : WritesInside around (write around tree)
  declares (around : List Entity) (type : TypeDefinition) (nested : List TypeTree) :
    WritesAbout (write around (.node type nested)) (around ++ [.type type])
  member (around : List Entity) (type : TypeDefinition) (nested : List TypeTree) (member : Entity)
    (hmember : member ∈ members type) :
    WritesAbout (write around (.node type nested)) (around ++ [.type type, member])
  nested (around : List Entity) (type : TypeDefinition) (nested : List TypeTree)
    (hopens : opens type = true) (tree : TypeTree) (htree : tree ∈ nested) :
    write (around ++ [.type type]) tree ⊆ write around (.node type nested)

theorem WritesTypes.writesAbout {m : CodeModule} {members : TypeDefinition → List Entity}
    {opens : TypeDefinition → Bool} {write : List Entity → TypeTree → List ListingStep}
    (h : WritesTypes members opens write) {depth : Nat} {type : TypeDefinition} {tree : TypeTree}
    (htree : m.typeTreeWithin opens depth type = .ok tree) {path : List Entity}
    (hpath : ShownPath m members opens type path) (around : List Entity) :
    WritesAbout (write around tree) (around ++ path) := by
  -- The tree is opened along the path: only the subtrees on it have to be looked into.
  induction hpath generalizing depth tree around with
  | type type =>
      obtain ⟨nested, rfl, -⟩ := CodeModule.nested_of_typeTreeWithin htree
      exact h.declares around type nested
  | @member type member hmember =>
      obtain ⟨nested, rfl, -⟩ := CodeModule.nested_of_typeTreeWithin htree
      exact h.member around type nested member hmember
  | @nested type inner path hopens hinner hpath ih =>
      obtain ⟨nested, rfl, hnested⟩ := CodeModule.nested_of_typeTreeWithin htree
      obtain ⟨depth', hall⟩ := hnested hopens
      obtain ⟨sub, hsub, hok⟩ := hall inner hinner
      have hwritten := (ih hok (around ++ [.type type])).of_subset
        (h.nested around type nested hopens sub hsub)
      rwa [List.append_assoc] at hwritten

/-!
## Writing members

A member is written in the same way in every dialect, up to its declaration.
-/

namespace Listing

/-- The steps of the listing of a member behind the full name of its type; `write` writes the
declaration. -/
def memberStepsBy (write : TypeDefinition → Entity → List WriterStep) (m : CodeModule)
    (token : Token) : Except Error (List ListingStep) := do
  let some member := m.entity? token | throw (.memberNotFound token)
  let some declaring := member.declaringType | throw (.memberNotFound token)
  let some owner := m.type? declaring | throw (.typeNotFound declaring)
  match member with
  | .type _ => throw (.memberNotFound token)
  | _ =>
      return ⟨[], .line ("// " ++ m.fullName declaring)⟩ ::
        ListingStep.about [member] (write owner member)

theorem exists_memberStepsBy {write : TypeDefinition → Entity → List WriterStep}
    (hwrite : ∀ owner member, Balanced (write owner member)) {m : CodeModule} {token : Token}
    {member : Entity} (hmember : m.entity? token = some member)
    (hother : ∀ type, member ≠ .type type) {declaring : Token}
    (hdeclaring : member.declaringType = some declaring) {owner : TypeDefinition}
    (howner : m.type? declaring = some owner) :
    ∃ steps, memberStepsBy write m token = .ok steps ∧ WritesInside [] steps := by
  refine ⟨⟨[], .line ("// " ++ m.fullName declaring)⟩ ::
    ListingStep.about [member] (write owner member), ?_, ?_⟩
  · simp only [memberStepsBy, hmember, hdeclaring, howner]
    cases member with
    | type type => exact absurd rfl (hother type)
    | method method => rfl
    | field field => rfl
    | property property => rfl
    | event event => rfl
  · exact (WritesInside.about (.inr ⟨member, rfl⟩) (hwrite owner member)).line _ (.inl rfl)

end Listing

/-!
## Steps in IL
-/

namespace Il

/-- The lines about what a type extends and implements. -/
def supertypeTexts (type : TypeDefinition) : List String :=
  (supertypeLines type).filterMap Source.lineText?

theorem steps_supertypeLines (type : TypeDefinition) :
    Source.stepsOfAll (supertypeLines type) = (supertypeTexts type).map .line := by
  refine Source.stepsOfAll_of_lines fun piece hmem => ?_
  rcases List.mem_append.mp hmem with hbase | hinterfaces
  · obtain ⟨base, -, rfl⟩ := List.mem_map.mp hbase
    exact ⟨_, rfl⟩
  · split at hinterfaces
    · cases hinterfaces
    · exact ⟨_, List.mem_singleton.mp hinterfaces⟩

/-- The lines that name accessors, as far as these can be found. -/
def accessorTexts (m : CodeModule) (owner : TypeDefinition)
    (accessors : List (String × Option Token)) : List String :=
  (accessors.filterMap fun (directive, token) => accessorLine? m owner directive token).filterMap
    Source.lineText?

theorem steps_accessorLines (m : CodeModule) (owner : TypeDefinition)
    (accessors : List (String × Option Token)) :
    Source.stepsOfAll (accessors.filterMap fun (directive, token) =>
      accessorLine? m owner directive token) = (accessorTexts m owner accessors).map .line := by
  refine Source.stepsOfAll_of_lines fun piece hmem => ?_
  obtain ⟨accessor, -, hpiece⟩ := List.mem_filterMap.mp hmem
  obtain ⟨method, -, rfl⟩ := Option.map_eq_some_iff.mp hpiece
  exact ⟨_, rfl⟩

def propertyHeader (m : CodeModule) (property : PropertyDefinition) : String :=
  let instanceWord :=
    if ((property.getter <|> property.setter).bind m.method?).any (!·.isStatic) then "instance "
    else ""
  ".property " ++ instanceWord ++ property.type.ilText ++ " " ++ property.name
    ++ "(" ++ String.intercalate ", " (property.parameters.map TypeExpr.ilText) ++ ")"

def eventHeader (event : EventDefinition) : String :=
  ".event " ++ event.type.ilText ++ " " ++ event.name

/-- The steps that declare a member. -/
def memberSteps (m : CodeModule) (owner : TypeDefinition) : Entity → List WriterStep
  | .method method =>
      [.line (methodHeader method), .openBlock,
        .closeBlock (" // end of method " ++ owner.name ++ "::" ++ method.name)]
  | .field field => [.line (fieldDirective field)]
  | .property property =>
      .line (propertyHeader m property) :: .openBlock ::
        ((accessorTexts m owner [(".get", property.getter), (".set", property.setter)]).map .line
          ++ [.closeBlock ""])
  | .event event =>
      .line (eventHeader event) :: .openBlock ::
        ((accessorTexts m owner [(".addon", event.adder), (".removeon", event.remover),
            (".fire", event.raiser)]).map .line
          ++ [.closeBlock ""])
  | .type _ => []

/-- The members of a type in the order in which they are written. -/
def membersOf (m : CodeModule) (type : TypeDefinition) : List Entity :=
  (type.fields.filterMap m.field?).map .field
    ++ (type.methods.filterMap m.method?).map .method
    ++ (type.properties.filterMap m.property?).map .property
    ++ (type.events.filterMap m.event?).map .event

mutual
/-- The steps that write a type with all that is in it. -/
def typeSteps (m : CodeModule) (around : List Entity) : TypeTree → List ListingStep
  | .node type nested =>
      let subject := around ++ [.type type]
      ListingStep.about subject (.line (classHeader m type) :: (supertypeTexts type).map .line)
        ++ ⟨subject, .openBlock⟩ :: (nestedSteps m subject nested
          ++ ListingStep.ofMembers subject (memberSteps m type) (membersOf m type)
          ++ [⟨subject, .closeBlock ""⟩])

def nestedSteps (m : CodeModule) (around : List Entity) : List TypeTree → List ListingStep
  | [] => []
  | type :: rest => typeSteps m around type ++ ⟨around, .line ""⟩ :: nestedSteps m around rest
end

/-- The steps of the listing of a type. -/
def typeListingSteps (m : CodeModule) (token : Token) : Except Error (List ListingStep) := do
  let some type := m.type? token | throw (.typeNotFound token)
  let tree ← m.typeTree (fun _ => true) type
  return typeSteps m [] tree

variable (m : CodeModule)

theorem steps_methodSource (owner : TypeDefinition) (method : MethodDefinition) :
    Source.stepsOfAll (methodSource owner method) = memberSteps m owner (.method method) := rfl

theorem steps_propertySource (owner : TypeDefinition) (property : PropertyDefinition) :
    Source.stepsOfAll (propertySource m owner property) =
      memberSteps m owner (.property property) := by
  have haccessors := steps_accessorLines m owner
    [(".get", property.getter), (".set", property.setter)]
  simp only [propertySource, Source.stepsOfAll, Source.steps, haccessors, List.append_nil]
  rfl

theorem steps_eventSource (owner : TypeDefinition) (event : EventDefinition) :
    Source.stepsOfAll (eventSource m owner event) = memberSteps m owner (.event event) := by
  have haccessors := steps_accessorLines m owner
    [(".addon", event.adder), (".removeon", event.remover), (".fire", event.raiser)]
  simp only [eventSource, Source.stepsOfAll, Source.steps, haccessors, List.append_nil]
  rfl

theorem steps_memberSource (type : TypeDefinition) :
    Source.stepsOfAll (memberSource m type) = (membersOf m type).flatMap (memberSteps m type) := by
  simp only [memberSource, membersOf, Source.stepsOfAll_append, Source.stepsOfAll_flatMap,
    Source.stepsOfAll_map, steps_methodSource m, steps_propertySource, steps_eventSource,
    List.flatMap_append, List.flatMap_map]
  rfl

mutual
theorem map_typeSteps (around : List Entity) :
    (tree : TypeTree) → (typeSteps m around tree).map ListingStep.step =
      Source.stepsOfAll (typeSource m tree)
  | .node type nested => by
      have hnested := map_nestedSteps (around ++ [.type type]) nested
      simp [typeSteps, typeSource, Source.stepsOfAll_append, Source.stepsOfAll, Source.steps,
        steps_supertypeLines, steps_memberSource, hnested]

theorem map_nestedSteps (around : List Entity) :
    (trees : List TypeTree) → (nestedSteps m around trees).map ListingStep.step =
      Source.stepsOfAll (nestedSource m trees)
  | [] => rfl
  | tree :: rest => by
      have htree := map_typeSteps around tree
      have hrest := map_nestedSteps around rest
      simp [nestedSteps, nestedSource, Source.stepsOfAll_append, Source.stepsOfAll, Source.steps,
        htree, hrest]
end

theorem typeListing_steps (token : Token) : (typeListing m token).map Source.stepsOfAll =
    (typeListingSteps m token).map (List.map ListingStep.step) := by
  unfold typeListing typeListingSteps
  cases m.type? token with
  | none => rfl
  | some type =>
      cases htree : m.typeTree (fun _ => true) type with
      | error error => simp only [htree]; rfl
      | ok tree =>
          simp only [htree, Outcome.ok_bind]
          show Except.ok _ = Except.ok _
          rw [map_typeSteps]

theorem memberListing_steps (token : Token) : (memberListing m token).map Source.stepsOfAll =
    (Listing.memberStepsBy (memberSteps m) m token).map (List.map ListingStep.step) := by
  unfold memberListing Listing.memberStepsBy
  cases hmember : m.entity? token with
  | none => rfl
  | some member =>
      cases hdeclaring : member.declaringType with
      | none => simp only [hdeclaring]; rfl
      | some declaring =>
          cases howner : m.type? declaring with
          | none => simp only [hdeclaring, howner]; rfl
          | some owner =>
              simp only [hdeclaring, howner]
              cases member with
              | type type => rfl
              | method method => rfl
              | field field => rfl
              | property property =>
                  show Except.ok _ = Except.ok _
                  rw [Source.stepsOfAll, steps_propertySource, List.map_cons,
                    ListingStep.map_about]
                  rfl
              | event event =>
                  show Except.ok _ = Except.ok _
                  rw [Source.stepsOfAll, steps_eventSource, List.map_cons, ListingStep.map_about]
                  rfl

theorem balanced_memberSteps (owner : TypeDefinition) (member : Entity) :
    Balanced (memberSteps m owner member) := by
  cases member with
  | type type => exact .nil
  | method method => exact (Balanced.nil.block _ .nil).line _
  | field field => exact Balanced.nil.line _
  | property property => exact ((Balanced.lines _).block "" .nil).line _
  | event event => exact ((Balanced.lines _).block "" .nil).line _

mutual
theorem inside_typeSteps (around : List Entity) :
    (tree : TypeTree) → WritesInside around (typeSteps m around tree)
  | .node type nested => by
      have hsubject : AtOrInside around (around ++ [.type type]) := .inr ⟨_, rfl⟩
      have hnested := inside_nestedSteps (around ++ [.type type]) nested
      have hmembers := WritesInside.ofMembers (around ++ [.type type])
        (balanced_memberSteps m type) (membersOf m type)
      rw [typeSteps]
      exact (WritesInside.about hsubject ((Balanced.lines _).line _)).append
        ((hnested.append hmembers).block "" hsubject .nil)

theorem inside_nestedSteps (around : List Entity) :
    (trees : List TypeTree) → WritesInside around (nestedSteps m around trees)
  | [] => .nil
  | tree :: rest =>
      (inside_typeSteps around tree).append ((inside_nestedSteps around rest).line "" (.inl rfl))
end

theorem memberSteps_ne_nil {type : TypeDefinition} {member : Entity}
    (h : member ∈ membersOf m type) : memberSteps m type member ≠ [] := by
  cases member with
  | type inner => simp [membersOf] at h
  | method method => exact List.cons_ne_nil _ _
  | field field => exact List.cons_ne_nil _ _
  | property property => exact List.cons_ne_nil _ _
  | event event => exact List.cons_ne_nil _ _

theorem subset_nestedSteps (around : List Entity) {tree : TypeTree} {trees : List TypeTree}
    (h : tree ∈ trees) : typeSteps m around tree ⊆ nestedSteps m around trees := by
  induction h with
  | head rest => exact List.subset_append_left _ _
  | tail other _ ih =>
      exact List.Subset.trans ih (List.Subset.trans (List.subset_cons_self _ _)
        (List.subset_append_right _ _))

theorem writesTypes : WritesTypes (membersOf m) (fun _ => true) (typeSteps m) where
  inside := inside_typeSteps m
  declares around type nested := by
    refine ⟨.line (classHeader m type), ?_⟩
    rw [typeSteps]
    exact List.mem_append_left _ (List.mem_cons_self)
  member around type nested member hmember := by
    have hwritten := WritesAbout.ofMembers (around ++ [.type type]) hmember
      (memberSteps_ne_nil m hmember)
    rw [List.append_assoc] at hwritten
    refine hwritten.of_subset fun step hstep => ?_
    simp only [typeSteps, List.mem_append, List.mem_cons]
    exact .inr (.inr (.inl (.inr hstep)))
  nested around type nested _ tree htree := by
    intro step hstep
    simp only [typeSteps, List.mem_append, List.mem_cons]
    exact .inr (.inr (.inl (.inl (subset_nestedSteps m _ htree hstep))))

theorem exists_typeListingSteps {token : Token} {type : TypeDefinition} {tree : TypeTree}
    (htype : m.type? token = some type) (htree : m.typeTree (fun _ => true) type = .ok tree) :
    ∃ steps, typeListingSteps m token = .ok steps ∧ WritesInside [] steps ∧
      typeSteps m [] tree ⊆ steps := by
  simp only [typeListingSteps, htype, htree, Outcome.ok_bind]
  exact ⟨_, rfl, (writesTypes m).inside [] tree, List.Subset.refl _⟩

end Il

/-!
## Steps in C#
-/

namespace CSharp

/-- The steps that declare a member. -/
def memberSteps (m : CodeModule) (owner : TypeDefinition) : Entity → List WriterStep
  | .method method => [.line (methodDeclaration owner method)]
  | .field field => [.line (fieldDeclaration owner field)]
  | .property property => [.line (propertyDeclaration m owner property)]
  | .event event => [.line (eventDeclaration m owner event)]
  | .type _ => []

/-- The members of a type in the order in which they are written. -/
def membersOf (m : CodeModule) (type : TypeDefinition) : List Entity :=
  (type.fields.filterMap m.field?).map .field
    ++ (type.events.filterMap m.event?).map .event
    ++ (type.properties.filterMap m.property?).map .property
    ++ ((type.methods.filterMap m.method?).filter (!·.isAccessor)).map .method

/-- The fields of an enumeration that are written. -/
def literalsOf (m : CodeModule) (type : TypeDefinition) : List Entity :=
  ((type.fields.filterMap m.field?).filter FieldDefinition.isLiteral).map .field

/-- The steps that write a literal. -/
def literalSteps : Entity → List WriterStep
  | .field field => [.line (enumLine field)]
  | _ => []

/-- The members that are written inside a type: none in a delegate, only literals in an
enumeration. -/
def shownMembers (m : CodeModule) (type : TypeDefinition) : List Entity :=
  match type.kind with
  | .delegateType => []
  | .enumType => literalsOf m type
  | _ => membersOf m type

mutual
/-- The steps that write a type with all that is in it. -/
def typeSteps (m : CodeModule) (around : List Entity) : TypeTree → List ListingStep
  | .node type nested =>
      let subject := around ++ [.type type]
      match type.kind with
      | .delegateType => [⟨subject, .line (delegateDeclaration m type)⟩]
      | .enumType =>
          ⟨subject, .line (typeHeader type)⟩ :: ⟨subject, .openBlock⟩ ::
            (ListingStep.ofMembers subject literalSteps (literalsOf m type)
              ++ [⟨subject, .closeBlock ""⟩])
      | _ =>
          ⟨subject, .line (typeHeader type)⟩ :: ⟨subject, .openBlock⟩ ::
            (ListingStep.ofMembers subject (memberSteps m type) (membersOf m type)
              ++ nestedSteps m subject nested ++ [⟨subject, .closeBlock ""⟩])

def nestedSteps (m : CodeModule) (around : List Entity) : List TypeTree → List ListingStep
  | [] => []
  | type :: rest => ⟨around, .line ""⟩ :: typeSteps m around type ++ nestedSteps m around rest
end

/-- The steps of the listing of a type, inside its namespace if it has one. -/
def typeListingSteps (m : CodeModule) (token : Token) : Except Error (List ListingStep) := do
  let some type := m.type? token | throw (.typeNotFound token)
  let tree ← m.typeTree showsNested type
  if type.namespaceName.isEmpty then return typeSteps m [] tree
  else
    return ⟨[], .line ("namespace " ++ type.namespaceName)⟩ :: ⟨[], .openBlock⟩ ::
      (typeSteps m [] tree ++ [⟨[], .closeBlock ""⟩])

variable (m : CodeModule)

theorem lines_eq_memberSteps (type : TypeDefinition) :
    (memberLines m type).map WriterStep.line = (membersOf m type).flatMap (memberSteps m type) := by
  simp [memberLines, membersOf, memberSteps, List.flatMap_map, ← List.map_eq_flatMap,
    Function.comp_def]

theorem steps_literals (type : TypeDefinition) :
    Source.stepsOfAll (((type.fields.filterMap m.field?).filter FieldDefinition.isLiteral).map
      fun field => .line (enumLine field)) = (literalsOf m type).flatMap literalSteps := by
  rw [Source.stepsOfAll_map, literalsOf, List.flatMap_map]
  rfl

mutual
theorem map_typeSteps (around : List Entity) :
    (tree : TypeTree) → (typeSteps m around tree).map ListingStep.step =
      Source.stepsOfAll (typeSource m tree)
  | .node type nested => by
      have hnested := map_nestedSteps (around ++ [.type type]) nested
      have hliterals := steps_literals m type
      have hmembers := lines_eq_memberSteps m type
      rw [typeSteps, typeSource]
      split <;> simp_all [Source.stepsOfAll, Source.steps, Source.stepsOfAll_append,
        Source.stepsOfAll_lines]

theorem map_nestedSteps (around : List Entity) :
    (trees : List TypeTree) → (nestedSteps m around trees).map ListingStep.step =
      Source.stepsOfAll (nestedSource m trees)
  | [] => rfl
  | tree :: rest => by
      have htree := map_typeSteps around tree
      have hrest := map_nestedSteps around rest
      simp [nestedSteps, nestedSource, Source.stepsOfAll_append, Source.stepsOfAll, Source.steps,
        htree, hrest]
end

theorem typeListing_steps (token : Token) : (typeListing m token).map Source.stepsOfAll =
    (typeListingSteps m token).map (List.map ListingStep.step) := by
  unfold typeListing typeListingSteps
  cases m.type? token with
  | none => rfl
  | some type =>
      cases htree : m.typeTree showsNested type with
      | error error => simp only [htree]; rfl
      | ok tree =>
          simp only [htree, Outcome.ok_bind]
          split
          · show Except.ok _ = Except.ok _
            rw [map_typeSteps]
          · show Except.ok _ = Except.ok _
            simp [Source.stepsOfAll, Source.steps, map_typeSteps]

theorem memberListing_steps (token : Token) : (memberListing m token).map Source.stepsOfAll =
    (Listing.memberStepsBy (memberSteps m) m token).map (List.map ListingStep.step) := by
  unfold memberListing Listing.memberStepsBy
  cases hmember : m.entity? token with
  | none => rfl
  | some member =>
      cases hdeclaring : member.declaringType with
      | none => simp only [hdeclaring]; rfl
      | some declaring =>
          cases howner : m.type? declaring with
          | none => simp only [hdeclaring, howner]; rfl
          | some owner =>
              simp only [hdeclaring, howner]
              cases member <;> rfl

theorem balanced_memberSteps (owner : TypeDefinition) (member : Entity) :
    Balanced (memberSteps m owner member) := by
  cases member with
  | type type => exact .nil
  | method method => exact Balanced.nil.line _
  | field field => exact Balanced.nil.line _
  | property property => exact Balanced.nil.line _
  | event event => exact Balanced.nil.line _

theorem literalSteps_ne_nil {type : TypeDefinition} {member : Entity}
    (h : member ∈ literalsOf m type) : literalSteps member ≠ [] := by
  obtain ⟨field, -, rfl⟩ := List.mem_map.mp h
  exact List.cons_ne_nil _ _

theorem balanced_literalSteps (member : Entity) : Balanced (literalSteps member) := by
  cases member with
  | field field => exact Balanced.nil.line _
  | _ => exact .nil

mutual
theorem inside_typeSteps (around : List Entity) :
    (tree : TypeTree) → WritesInside around (typeSteps m around tree)
  | .node type nested => by
      have hsubject : AtOrInside around (around ++ [.type type]) := .inr ⟨_, rfl⟩
      have hnested := inside_nestedSteps (around ++ [.type type]) nested
      have hmembers := WritesInside.ofMembers (around ++ [.type type])
        (balanced_memberSteps m type) (membersOf m type)
      have hliterals := WritesInside.ofMembers (around ++ [.type type])
        balanced_literalSteps (literalsOf m type)
      rw [typeSteps]
      split
      · exact WritesInside.nil.line _ hsubject
      · exact (hliterals.block "" hsubject .nil).line _ hsubject
      · exact ((hmembers.append hnested).block "" hsubject .nil).line _ hsubject

theorem inside_nestedSteps (around : List Entity) :
    (trees : List TypeTree) → WritesInside around (nestedSteps m around trees)
  | [] => .nil
  | tree :: rest =>
      ((inside_typeSteps around tree).append (inside_nestedSteps around rest)).line "" (.inl rfl)
end

theorem memberSteps_ne_nil {type : TypeDefinition} {member : Entity}
    (h : member ∈ membersOf m type) : memberSteps m type member ≠ [] := by
  cases member with
  | type inner => simp [membersOf] at h
  | method method => exact List.cons_ne_nil _ _
  | field field => exact List.cons_ne_nil _ _
  | property property => exact List.cons_ne_nil _ _
  | event event => exact List.cons_ne_nil _ _

theorem subset_nestedSteps (around : List Entity) {tree : TypeTree} {trees : List TypeTree}
    (h : tree ∈ trees) : typeSteps m around tree ⊆ nestedSteps m around trees := by
  induction h with
  | head rest =>
      exact List.Subset.trans (List.subset_append_left _ _) (List.subset_cons_self _ _)
  | tail other _ ih =>
      exact List.Subset.trans ih (List.subset_append_right _ _)

theorem writesTypes : WritesTypes (shownMembers m) showsNested (typeSteps m) where
  inside := inside_typeSteps m
  declares around type nested := by
    rw [typeSteps]
    split <;> exact ⟨_, List.mem_cons_self⟩
  member around type nested member hmember := by
    have hliteral (hmem : member ∈ literalsOf m type) :=
      WritesAbout.ofMembers (around ++ [.type type]) hmem (literalSteps_ne_nil m hmem)
    have hany (hmem : member ∈ membersOf m type) :=
      WritesAbout.ofMembers (around ++ [.type type]) hmem (memberSteps_ne_nil m hmem)
    rw [List.append_assoc] at hliteral hany
    rw [shownMembers] at hmember
    rw [typeSteps]
    split
    case h_1 hkind =>
      rw [hkind] at hmember
      cases hmember
    case h_2 hkind =>
      rw [hkind] at hmember
      refine (hliteral hmember).of_subset fun step hstep => ?_
      exact List.mem_cons_of_mem _ (List.mem_cons_of_mem _ (List.mem_append_left _ hstep))
    case h_3 hdelegate henum =>
      refine (hany (by simpa only [hdelegate, henum] using hmember)).of_subset fun step hstep => ?_
      exact List.mem_cons_of_mem _ (List.mem_cons_of_mem _
        (List.mem_append_left _ (List.mem_append_left _ hstep)))
  nested around type nested hopens tree htree := by
    intro step hstep
    have hwritten := subset_nestedSteps m _ htree hstep
    rw [typeSteps]
    split <;> simp_all [showsNested]

theorem exists_typeListingSteps {token : Token} {type : TypeDefinition} {tree : TypeTree}
    (htype : m.type? token = some type) (htree : m.typeTree showsNested type = .ok tree) :
    ∃ steps, typeListingSteps m token = .ok steps ∧ WritesInside [] steps ∧
      typeSteps m [] tree ⊆ steps := by
  have hinside := (writesTypes m).inside [] tree
  simp only [typeListingSteps, htype, htree, Outcome.ok_bind]
  split
  · exact ⟨_, rfl, hinside, List.Subset.refl _⟩
  · refine ⟨_, rfl, (hinside.block "" (.inl rfl) .nil).line _ (.inl rfl), fun step hstep => ?_⟩
    exact List.mem_cons_of_mem _ (List.mem_cons_of_mem _ (List.mem_append_left _ hstep))

end CSharp

/-!
## Steps in each dialect
-/

namespace Listing

/-- The steps of the listing of a type. -/
def typeSteps (dialect : Dialect) (m : CodeModule) (token : Token) :
    Except Error (List ListingStep) :=
  if dialect.isIl then Il.typeListingSteps m token else CSharp.typeListingSteps m token

/-- The steps of the listing of a member. -/
def memberSteps (dialect : Dialect) (m : CodeModule) (token : Token) :
    Except Error (List ListingStep) :=
  memberStepsBy (if dialect.isIl then Il.memberSteps m else CSharp.memberSteps m) m token

/-- The members that a dialect writes inside a type. -/
def shownMembers (dialect : Dialect) (m : CodeModule) : TypeDefinition → List Entity :=
  if dialect.isIl then Il.membersOf m else CSharp.shownMembers m

/-- The text that a new writer has at the end. -/
def textOf (steps : List ListingStep) : String :=
  (({} : Writer).run (steps.map ListingStep.step)).text

theorem map_text {listing : Except Error (List Source)} {outcome : Except Error (List ListingStep)}
    (h : listing.map Source.stepsOfAll = outcome.map (List.map ListingStep.step)) :
    listing.map Source.text = outcome.map textOf := by
  have htext : listing.map Source.text =
      (listing.map Source.stepsOfAll).map fun steps => (({} : Writer).run steps).text := by
    cases listing with
    | error error => rfl
    | ok pieces => exact congrArg Except.ok (Source.text_run_stepsOfAll pieces).symm
  rw [htext, h]
  cases outcome <;> rfl

/-- The text of a type is what the steps write. -/
theorem ofType_eq_steps (dialect : Dialect) (m : CodeModule) (token : Token) :
    ofType dialect m token = (typeSteps dialect m token).map textOf := by
  unfold ofType typeSteps
  cases dialect.isIl with
  | true => exact map_text (Il.typeListing_steps m token)
  | false => exact map_text (CSharp.typeListing_steps m token)

/-- The text of a member is what the steps write. -/
theorem ofMember_eq_steps (dialect : Dialect) (m : CodeModule) (token : Token) :
    ofMember dialect m token = (memberSteps dialect m token).map textOf := by
  unfold ofMember memberSteps
  cases dialect.isIl with
  | true => exact map_text (Il.memberListing_steps m token)
  | false => exact map_text (CSharp.memberListing_steps m token)

/-- What makes a text well bracketed. -/
structure MatchesBlocks (steps : List ListingStep) : Prop where
  /-- The text is a line for each step, at the depth of that step. -/
  text_eq : textOf steps =
    String.join ((({} : Writer).lines (steps.map ListingStep.step)).map (· ++ "\n"))
  wellBracketed : WellBracketed (steps.map ListingStep.step)
  standInBlocks : StandInBlocks steps

variable {dialect : Dialect} {m : CodeModule} {token : Token}

theorem matchesBlocks_of_inside {steps : List ListingStep} (h : WritesInside [] steps) :
    MatchesBlocks steps where
  text_eq := by rw [textOf, Writer.text_run, String.empty_append]
  wellBracketed := h.balanced.wellBracketed
  standInBlocks := h.standInBlocks

theorem exists_typeSteps {type : TypeDefinition} {tree : TypeTree}
    (htype : m.type? token = some type) (htree : m.typeTree (opensIn dialect) type = .ok tree) :
    ∃ steps, typeSteps dialect m token = .ok steps ∧ WritesInside [] steps ∧
      ∀ path, ShownPath m (shownMembers dialect m) (opensIn dialect) type path →
        WritesAbout steps path := by
  unfold typeSteps shownMembers opensIn at *
  cases hdialect : dialect.isIl with
  | true =>
      rw [hdialect] at htree
      obtain ⟨steps, hsteps, hinside, hsubset⟩ := Il.exists_typeListingSteps m htype htree
      refine ⟨steps, hsteps, hinside, fun path hpath => ?_⟩
      exact ((Il.writesTypes m).writesAbout htree hpath []).of_subset hsubset
  | false =>
      rw [hdialect] at htree
      obtain ⟨steps, hsteps, hinside, hsubset⟩ := CSharp.exists_typeListingSteps m htype htree
      refine ⟨steps, hsteps, hinside, fun path hpath => ?_⟩
      exact ((CSharp.writesTypes m).writesAbout htree hpath []).of_subset hsubset

theorem balanced_memberSteps (dialect : Dialect) (m : CodeModule) (owner : TypeDefinition)
    (member : Entity) :
    Balanced ((if dialect.isIl then Il.memberSteps m else CSharp.memberSteps m) owner member) := by
  cases dialect.isIl with
  | true => exact Il.balanced_memberSteps m owner member
  | false => exact CSharp.balanced_memberSteps m owner member

/-- Steps that open and close blocks in turn write the listing of a type whose nested types do not
lead to one inside itself, and the listing of a member. They match: a writer comes back to the
depth at which it began, closes only what was opened, and closes it with one line, which has the
indentation of the line that opens it. Every nested type and every member that the dialect shows
is written, and all about it stands in the block of its owner. -/
theorem listings_well_bracketed (dialect : Dialect) (m : CodeModule) (token : Token) :
    (∀ type, m.type? token = some type → ¬ m.MeetsCircle (opensIn dialect) token →
      ∃ steps, typeSteps dialect m token = .ok steps ∧
        ofType dialect m token = .ok (textOf steps) ∧ MatchesBlocks steps ∧
        ∀ path, ShownPath m (shownMembers dialect m) (opensIn dialect) type path →
          WritesAbout steps path) ∧
      ∀ member declaring owner, m.entity? token = some member → (∀ type, member ≠ .type type) →
        member.declaringType = some declaring → m.type? declaring = some owner →
          ∃ steps, memberSteps dialect m token = .ok steps ∧
            ofMember dialect m token = .ok (textOf steps) ∧ MatchesBlocks steps := by
  constructor
  · intro type htype hfree
    obtain ⟨tree, htree⟩ := (CodeModule.typeTree_ok_iff htype).mpr hfree
    obtain ⟨steps, hsteps, hinside, hshown⟩ := exists_typeSteps htype htree
    refine ⟨steps, hsteps, ?_, matchesBlocks_of_inside hinside, hshown⟩
    rw [ofType_eq_steps, hsteps]
    rfl
  · intro member declaring owner hmember hother hdeclaring howner
    obtain ⟨steps, hsteps, hinside⟩ := exists_memberStepsBy (balanced_memberSteps dialect m)
      hmember hother hdeclaring howner
    refine ⟨steps, hsteps, ?_, matchesBlocks_of_inside hinside⟩
    rw [ofMember_eq_steps, memberSteps, hsteps]
    rfl

open Store (nestedModule) in
/-- A type with another one inside it, and the field of that one. -/
theorem listings_well_bracketed_nested :
    (∃ outer inner field steps, nestedModule.type? (TableId.typeDef.token 2) = some outer ∧
      nestedModule.type? (TableId.typeDef.token 3) = some inner ∧
      nestedModule.field? (TableId.field.token 1) = some field ∧
      ¬ nestedModule.MeetsCircle (opensIn .il) (TableId.typeDef.token 2) ∧
      ofType .il nestedModule (TableId.typeDef.token 2) = .ok (textOf steps) ∧
      MatchesBlocks steps ∧ WritesAbout steps [.type outer, .type inner, .field field]) ∧
      ∃ steps, ofMember .csharpLatest nestedModule (TableId.field.token 1) =
        .ok (textOf steps) ∧ MatchesBlocks steps := by
  constructor
  · have hfree : ¬ nestedModule.MeetsCircle (opensIn .il) (TableId.typeDef.token 2) :=
      (CodeModule.typeTree_ok_iff rfl).mp ⟨_, rfl⟩
    obtain ⟨steps, -, htext, hblocks, hshown⟩ :=
      (listings_well_bracketed .il nestedModule (TableId.typeDef.token 2)).1 _ rfl hfree
    refine ⟨_, _, _, steps, rfl, rfl, rfl, hfree, htext, hblocks, hshown _ ?_⟩
    refine .nested rfl (List.mem_of_getElem? (i := 0) rfl) (.member ?_)
    exact List.mem_of_getElem? (i := 0) rfl
  · obtain ⟨steps, -, htext, hblocks⟩ :=
      (listings_well_bracketed .csharpLatest nestedModule (TableId.field.token 1)).2 _ _ _ rfl
        (by intro type h; cases h) rfl rfl
    exact ⟨steps, htext, hblocks⟩

end Listing
end AssemblyBrowser
