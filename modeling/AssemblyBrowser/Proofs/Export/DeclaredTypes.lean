import AssemblyBrowser.Proofs.Export.Plans
import AssemblyBrowser.Proofs.Listing.Declarations
import AssemblyBrowser.Proofs.Search.Scopes

/-!
# The types that an export declares

An export writes the types that stand in no other type, each with the types inside it.
In a well-nested module the walk below such a type ends, and comes to no type twice:
the way outwards from a type is a single one. So every type that is come to is declared
once, in the text of the outermost type around it. A type is come to if all types around
it are opened. In IL they all are. In C# an enumeration and a delegate are written
without the types inside them.
-/

namespace AssemblyBrowser

/-- IL shows the types inside every type, C# those inside types other than delegates and
enumerations. -/
theorem Listing.opensIn_iff {dialect : Dialect} {type : TypeDefinition} :
    opensIn dialect type = true ↔
      dialect.isIl = true ∨ type.kind ≠ .delegateType ∧ type.kind ≠ .enumType := by
  unfold opensIn
  cases dialect.isIl with
  | true => simp
  | false => simp [CSharp.showsNested]

namespace CodeModule

variable {m : CodeModule} {opens : TypeDefinition → Bool}

/-!
## Walks below a type
-/

/-- The types that are shown for a type, which is one of them, if the walk below it ends. -/
def shownBelow (m : CodeModule) (opens : TypeDefinition → Bool) (depth : Nat)
    (type : TypeDefinition) : List TypeDefinition :=
  ((m.typeTreeWithin opens depth type).toOption.map (TypeTree.shown opens)).getD []

theorem shownBelow_of_ok {depth : Nat} {type : TypeDefinition} {tree : TypeTree}
    (h : m.typeTreeWithin opens depth type = .ok tree) :
    m.shownBelow opens depth type = tree.shown opens := by
  unfold shownBelow
  rw [h]
  rfl

theorem flatMap_shown_of_forall₂ {depth : Nat} {types : List TypeDefinition}
    {trees : List TypeTree}
    (h : List.Forall₂ (fun type tree => m.typeTreeWithin opens depth type = .ok tree)
      types trees) :
    trees.flatMap (TypeTree.shown opens) = types.flatMap (m.shownBelow opens depth) := by
  induction h with
  | nil => rfl
  | cons hfirst _ ih => rw [List.flatMap_cons, List.flatMap_cons, ih, shownBelow_of_ok hfirst]

/-- What is shown for a type: the type, and what is shown for the types inside it if it is
opened. -/
theorem shownBelow_succ {depth : Nat} {type : TypeDefinition}
    (h : ∃ tree, m.typeTreeWithin opens (depth + 1) type = .ok tree) :
    m.shownBelow opens (depth + 1) type =
        type :: (if opens type then
          (m.typesInside type).flatMap (m.shownBelow opens depth) else []) ∧
      (opens type = true → ∀ inner ∈ m.typesInside type,
        ∃ tree, m.typeTreeWithin opens depth inner = .ok tree) := by
  rcases h with ⟨tree, htree⟩
  rw [shownBelow_of_ok htree]
  rw [typeTreeWithin] at htree
  cases hopens : opens type with
  | false =>
      rw [hopens] at htree
      cases htree
      rw [TypeTree.shown, hopens]
      exact ⟨rfl, fun h => absurd h Bool.false_ne_true⟩
  | true =>
      rw [hopens] at htree
      rcases Outcome.bind_eq_ok.mp htree with ⟨trees, htrees, hnode⟩
      rw [← Outcome.pure_eq_ok.mp hnode, TypeTree.shown, hopens, TypeTree.shownIn_eq_flatMap,
        flatMap_shown_of_forall₂ (Outcome.mapM_eq_ok.mp htrees)]
      exact ⟨rfl, fun _ => Outcome.exists_mapM_eq_ok.mp ⟨trees, htrees⟩⟩

/-- A walk comes to the types that are written inside one another, beginning with its own. -/
theorem mem_shownBelow_iff {depth : Nat} {token : Token} {type inner : TypeDefinition}
    (htype : m.type? token = some type)
    (h : ∃ tree, m.typeTreeWithin opens depth type = .ok tree) :
    inner ∈ m.shownBelow opens depth type ↔
      ∃ place, Relation.ReflTransGen (m.ShowsInside opens) token place ∧
        m.type? place = some inner := by
  induction depth generalizing token type with
  | zero =>
      rcases h with ⟨tree, htree⟩
      cases htree
  | succ depth ih =>
      obtain ⟨hshown, hended⟩ := shownBelow_succ h
      rw [hshown, List.mem_cons]
      constructor
      · rintro (rfl | hbelow)
        · exact ⟨token, .refl, htype⟩
        · split at hbelow
          case isTrue hopens =>
            rcases List.mem_flatMap.mp hbelow with ⟨next, hnext, hinner⟩
            rcases List.mem_filterMap.mp hnext with ⟨step, hlisted, hfound⟩
            rcases (ih hfound (hended hopens next hnext)).mp hinner with ⟨place, hreach, hplace⟩
            have hstep : m.ShowsInside opens token step :=
              ⟨type, htype, hopens, hlisted, by rw [hfound]; rfl⟩
            exact ⟨place, hreach.head hstep, hplace⟩
          case isFalse => cases hbelow
      · rintro ⟨place, hreach, hplace⟩
        rcases hreach.cases_head with rfl | ⟨step, ⟨outer, houter, hopens, hlisted, hsome⟩, hrest⟩
        · rw [htype] at hplace
          exact .inl (Option.some.inj hplace).symm
        · rw [htype] at houter
          obtain rfl := Option.some.inj houter
          rcases Option.isSome_iff_exists.mp hsome with ⟨next, hnext⟩
          have hinside : next ∈ m.typesInside type := List.mem_filterMap.mpr ⟨step, hlisted, hnext⟩
          right
          rw [if_pos hopens]
          exact List.mem_flatMap.mpr ⟨next, hinside,
            (ih hnext (hended hopens next hinside)).mpr ⟨place, hrest, hplace⟩⟩

/-!
## Well-nested modules
-/

/-- Types are listed where they are declared, and the way from a type to the types around it ends
at one that exists. The rows are numbered, as they are in all modules that are loaded or built,
and fit tokens. -/
structure NestsTypes (m : CodeModule) : Prop where
  indexed : m.Indexed
  rowsFit : m.types.size < 0x1000000
  ends : ∀ type ∈ m.types, ∃ depth, m.StandsAt depth type
  listsDeclared : m.ListsDeclared
  /-- Only the first row can be the one for what belongs to no type, and nothing is inside it. -/
  pseudoType : ∀ type ∈ m.types, type.name = modulePseudoType →
    type.token = TableId.typeDef.token 1 ∧ type.namespaceName = "" ∧ type.nestedTypes = []

theorem Browsable.nestsTypes (h : m.Browsable) : m.NestsTypes where
  indexed := h.indexed
  rowsFit := h.rowsFit
  ends := h.wellNested.ends
  listsDeclared := h.wellNested.listsDeclared
  pseudoType := h.wellNested.pseudoType

namespace NestsTypes

variable (h : m.NestsTypes) {a b c token : Token} {type inner outer : TypeDefinition} {depth : Nat}

include h

theorem type?_eq_some_iff : m.type? token = some type ↔ type ∈ m.types ∧ type.token = token :=
  h.indexed.type?_eq_some_iff h.rowsFit

/-- What is written inside a type is declared in it. -/
theorem declared_of_step (hstep : m.ShowsInside opens a b) :
    ∃ outer inner, m.type? a = some outer ∧ m.type? b = some inner ∧
      opens outer = true ∧ inner.declaringType = some a := by
  rcases hstep with ⟨outer, houter, hopens, hlisted, hsome⟩
  rcases Option.isSome_iff_exists.mp hsome with ⟨inner, hinner⟩
  obtain ⟨hmem, rfl⟩ := h.type?_eq_some_iff.mp houter
  have hinside : inner ∈ m.typesInside outer := List.mem_filterMap.mpr ⟨b, hlisted, hinner⟩
  have hdeclared := (h.listsDeclared.mem_typesInside_iff h.indexed h.rowsFit hmem).mp hinside
  exact ⟨outer, inner, houter, hinner, hopens, hdeclared.2⟩

/-- What is declared in a type that is opened is written inside it. -/
theorem step_of_declared (hinner : m.type? b = some inner) (houter : m.type? a = some outer)
    (hdeclared : inner.declaringType = some a) (hopens : opens outer = true) :
    m.ShowsInside opens a b := by
  obtain ⟨houterMem, rfl⟩ := h.type?_eq_some_iff.mp houter
  obtain ⟨hinnerMem, rfl⟩ := h.type?_eq_some_iff.mp hinner
  have hinside := (h.listsDeclared.mem_typesInside_iff h.indexed h.rowsFit houterMem).mpr
    ⟨hinnerMem, hdeclared⟩
  rcases List.mem_filterMap.mp hinside with ⟨token, hlisted, hfound⟩
  obtain ⟨_, rfl⟩ := h.type?_eq_some_iff.mp hfound
  exact ⟨outer, houter, hopens, hlisted, by rw [hfound]; rfl⟩

theorem standsAt_of_step (hstep : m.ShowsInside opens a b) (htype : m.type? a = some type)
    (hdepth : m.StandsAt depth type) :
    ∃ inner, m.type? b = some inner ∧ m.StandsAt (depth + 1) inner := by
  rcases h.declared_of_step hstep with ⟨outer, inner, houter, hinner, _, hdeclared⟩
  rw [htype] at houter
  obtain rfl := Option.some.inj houter
  exact ⟨inner, hinner, .inside hdeclared htype hdepth⟩

theorem standsAt_of_transGen (hreach : Relation.TransGen (m.ShowsInside opens) a b)
    (htype : m.type? a = some type) (hdepth : m.StandsAt depth type) :
    ∃ inner deeper, m.type? b = some inner ∧ depth < deeper ∧ m.StandsAt deeper inner := by
  induction hreach with
  | single hstep =>
      rcases h.standsAt_of_step hstep htype hdepth with ⟨inner, hinner, hstands⟩
      exact ⟨inner, depth + 1, hinner, Nat.lt_succ_self depth, hstands⟩
  | tail _ hstep ih =>
      rcases ih with ⟨outer, deeper, houter, hlt, houterDepth⟩
      rcases h.standsAt_of_step hstep houter houterDepth with ⟨inner, hinner, hstands⟩
      exact ⟨inner, deeper + 1, hinner, Nat.lt_succ_of_lt hlt, hstands⟩

/-- From a type one comes to no other type of its depth. -/
theorem not_transGen_of_standsAt (htype : m.type? a = some type) (hinner : m.type? b = some inner)
    (hdepth : m.StandsAt depth type) (hsame : m.StandsAt depth inner) :
    ¬ Relation.TransGen (m.ShowsInside opens) a b := by
  intro hreach
  rcases h.standsAt_of_transGen hreach htype hdepth with ⟨other, deeper, hother, hlt, hdeeper⟩
  rw [hinner] at hother
  obtain rfl := Option.some.inj hother
  exact absurd (hdeeper.unique hsame) (Nat.ne_of_gt hlt)

theorem exists_standsAt (htype : m.type? token = some type) : ∃ depth, m.StandsAt depth type :=
  h.ends type (h.type?_eq_some_iff.mp htype).1

theorem not_circle : ¬ Relation.TransGen (m.ShowsInside opens) a a := by
  intro hcircle
  rcases Relation.TransGen.head'_iff.mp hcircle with ⟨_, ⟨type, htype, _⟩, _⟩
  rcases h.exists_standsAt htype with ⟨depth, hdepth⟩
  exact h.not_transGen_of_standsAt htype htype hdepth hdepth hcircle

/-- Every walk below a type ends. -/
theorem exists_typeTree (htype : m.type? token = some type) :
    ∃ tree, m.typeTree opens type = .ok tree :=
  (typeTree_ok_iff htype).mpr fun ⟨_, _, hcircle⟩ => h.not_circle hcircle

/-- The way outwards from a type is a single one. -/
theorem rightUnique_outwards : Relator.RightUnique (Function.swap (m.ShowsInside opens)) := by
  intro inner first second hfirst hsecond
  rcases h.declared_of_step hfirst with ⟨_, type, _, htype, _, hdeclared⟩
  rcases h.declared_of_step hsecond with ⟨_, same, _, hsame, _, hagain⟩
  rw [htype] at hsame
  obtain rfl := Option.some.inj hsame
  exact Option.some.inj (hdeclared.symm.trans hagain)

/-- A type is inside one type of each depth. -/
theorem eq_of_reached (hfirst : Relation.ReflTransGen (m.ShowsInside opens) a c)
    (hsecond : Relation.ReflTransGen (m.ShowsInside opens) b c) (htype : m.type? a = some type)
    (hinner : m.type? b = some inner) (hdepth : m.StandsAt depth type)
    (hsame : m.StandsAt depth inner) : a = b := by
  have houtwards := Relation.ReflTransGen.total_of_right_unique (h.rightUnique_outwards)
    (Relation.reflTransGen_swap.mpr hfirst) (Relation.reflTransGen_swap.mpr hsecond)
  rcases houtwards with hway | hway
  · rcases Relation.reflTransGen_iff_eq_or_transGen.mp (Relation.reflTransGen_swap.mp hway) with
      heq | htrans
    · exact heq
    · exact absurd htrans (h.not_transGen_of_standsAt hinner htype hsame hdepth)
  · rcases Relation.reflTransGen_iff_eq_or_transGen.mp (Relation.reflTransGen_swap.mp hway) with
      heq | htrans
    · exact heq.symm
    · exact absurd htrans (h.not_transGen_of_standsAt htype hinner hdepth hsame)

/-- A walk comes to no type twice. -/
theorem nodup_shownBelow {levels : Nat} (htype : m.type? token = some type)
    (hended : ∃ tree, m.typeTreeWithin opens levels type = .ok tree) :
    (m.shownBelow opens levels type).Nodup := by
  induction levels generalizing token type with
  | zero =>
      rcases hended with ⟨tree, htree⟩
      cases htree
  | succ levels ih =>
      obtain ⟨hshown, hbelow⟩ := shownBelow_succ hended
      rw [hshown]
      cases hopens : opens type with
      | false => exact List.nodup_singleton type
      | true =>
          obtain ⟨hmem, rfl⟩ := h.type?_eq_some_iff.mp htype
          rcases h.exists_standsAt htype with ⟨depth, hdepth⟩
          have hstep {next : TypeDefinition} (hnext : next ∈ m.typesInside type) :
              m.type? next.token = some next ∧ m.StandsAt (depth + 1) next ∧
                m.ShowsInside opens type.token next.token := by
            have hinside := (h.listsDeclared.mem_typesInside_iff h.indexed h.rowsFit hmem).mp hnext
            have hfound := h.type?_eq_some_iff.mpr ⟨hinside.1, rfl⟩
            exact ⟨hfound, .inside hinside.2 htype hdepth,
              h.step_of_declared hfound htype hinside.2 hopens⟩
          have hreached {next other : TypeDefinition} (hnext : next ∈ m.typesInside type)
              (hother : other ∈ m.shownBelow opens levels next) :
              Relation.ReflTransGen (m.ShowsInside opens) next.token other.token := by
            rcases (mem_shownBelow_iff (hstep hnext).1 (hbelow hopens next hnext)).mp hother with
              ⟨place, hreach, hplace⟩
            rw [(h.type?_eq_some_iff.mp hplace).2]
            exact hreach
          rw [if_pos rfl, List.nodup_cons]
          constructor
          · intro hagain
            rcases List.mem_flatMap.mp hagain with ⟨next, hnext, hother⟩
            exact h.not_circle (.head' (hstep hnext).2.2 (hreached hnext hother))
          · refine nodup_flatMap_of_source
              (h.listsDeclared.nodup_typesInside h.indexed h.rowsFit hmem)
              (fun next hnext => ih (hstep hnext).1 (hbelow hopens next hnext)) ?_
            intro first hfirst second hsecond other hother hagain
            have hsame := h.eq_of_reached (hreached hfirst hother) (hreached hsecond hagain)
              (hstep hfirst).1 (hstep hsecond).1 (hstep hfirst).2.1 (hstep hsecond).2.1
            have hfound := (hstep hfirst).1
            rw [hsame, (hstep hsecond).1] at hfound
            exact (Option.some.inj hfound).symm

/-- The outermost type around a type to which a walk comes is the one where the walk begins, if
that one stands in no other. -/
theorem outermostAround_of_reached (hreach : Relation.ReflTransGen (m.ShowsInside opens) a b)
    (htype : m.type? a = some type) (htop : type.declaringType = none)
    (hinner : m.type? b = some inner) : m.OutermostAround inner type := by
  induction hreach generalizing inner with
  | refl =>
      rw [htype] at hinner
      obtain rfl := Option.some.inj hinner
      exact .top htop
  | tail _ hstep ih =>
      rcases h.declared_of_step hstep with ⟨outer, same, houter, hsame, _, hdeclared⟩
      rw [hinner] at hsame
      obtain rfl := Option.some.inj hsame
      exact .inside hdeclared houter (ih houter)

end NestsTypes
end CodeModule

/-!
## Exports
-/

namespace Export

open MarkedSource (declaredIn sources)
open Store (nestedModule nestedModule_browsable onlyPlace)

variable {m : CodeModule} {dialect : Dialect}

/-- The types that the text of a type declares. -/
def declaredFor (dialect : Dialect) (m : CodeModule) (token : Token) : List TypeDefinition :=
  ((Listing.marked dialect m token).toOption.map declaredIn).getD []

/-- The types that the texts of an export declare. -/
def declaredTypes (dialect : Dialect) (m : CodeModule) : List TypeDefinition :=
  (exportedTypes m true).flatMap fun top => declaredFor dialect m top.token

theorem mem_exportedTypes_iff (h : m.NestsTypes) {type : TypeDefinition} :
    type ∈ exportedTypes m true ↔
      type ∈ m.types ∧ type.declaringType = none ∧ type.name ≠ modulePseudoType := by
  have hpseudo (hmem : type ∈ m.types) :
      (type.name == modulePseudoType && type.namespaceName.isEmpty) = false ↔
        type.name ≠ modulePseudoType := by
    rw [Bool.and_eq_false_imp, beq_iff_eq]
    constructor
    · intro hnamed hname
      have hempty := hnamed hname
      rw [(h.pseudoType type hmem hname).2.1] at hempty
      cases hempty
    · exact fun hother hname => absurd hname hother
  simp only [exportedTypes, List.mem_filter, Array.mem_toList_iff, Bool.true_or, Bool.and_true,
    Bool.and_eq_true, Option.isNone_iff_eq_none, Bool.not_eq_true']
  exact and_congr_right fun hmem => and_congr_right fun _ => hpseudo hmem

/-- What the text of a type declares is what a walk below it comes to. -/
theorem exists_marked_shownBelow (dialect : Dialect) (h : m.NestsTypes) {token : Token}
    {type : TypeDefinition} (htype : m.type? token = some type) :
    ∃ pieces, Listing.marked dialect m token = .ok pieces ∧
      declaredIn pieces = m.shownBelow (Listing.opensIn dialect) m.types.size type := by
  rcases h.exists_typeTree htype with ⟨tree, htree⟩
  rcases Listing.exists_marked htype htree with ⟨pieces, hpieces, hdeclared⟩
  exact ⟨pieces, hpieces, hdeclared.trans (CodeModule.shownBelow_of_ok htree).symm⟩

theorem declaredFor_eq (h : m.NestsTypes) {token : Token} {type : TypeDefinition}
    (htype : m.type? token = some type) :
    declaredFor dialect m token =
      m.shownBelow (Listing.opensIn dialect) m.types.size type := by
  rcases exists_marked_shownBelow dialect h htype with ⟨pieces, hpieces, hdeclared⟩
  unfold declaredFor
  rw [hpieces, ← hdeclared]
  rfl

theorem mem_declaredFor_iff (h : m.NestsTypes) {top type : TypeDefinition} (htop : top ∈ m.types) :
    type ∈ declaredFor dialect m top.token ↔
      type ∈ m.types ∧
        Relation.ReflTransGen (m.ShowsInside (Listing.opensIn dialect)) top.token type.token := by
  have hfound := h.type?_eq_some_iff.mpr ⟨htop, rfl⟩
  rw [declaredFor_eq h hfound, CodeModule.mem_shownBelow_iff hfound (h.exists_typeTree hfound)]
  constructor
  · rintro ⟨place, hreach, hplace⟩
    obtain ⟨hmem, rfl⟩ := h.type?_eq_some_iff.mp hplace
    exact ⟨hmem, hreach⟩
  · rintro ⟨hmem, hreach⟩
    exact ⟨type.token, hreach, h.type?_eq_some_iff.mpr ⟨hmem, rfl⟩⟩

/-- A type is declared in the text of the outermost type around it. -/
theorem outermostAround_of_declaredFor (h : m.NestsTypes) {top type : TypeDefinition}
    (htop : top ∈ exportedTypes m true) (htype : type ∈ declaredFor dialect m top.token) :
    type ∈ m.types ∧ m.OutermostAround type top := by
  obtain ⟨hmem, hnone, _⟩ := (mem_exportedTypes_iff h).mp htop
  obtain ⟨hrow, hreach⟩ := (mem_declaredFor_iff h hmem).mp htype
  exact ⟨hrow, h.outermostAround_of_reached hreach (h.type?_eq_some_iff.mpr ⟨hmem, rfl⟩) hnone
    (h.type?_eq_some_iff.mpr ⟨hrow, rfl⟩)⟩

theorem nodup_declaredTypes (h : m.NestsTypes) : (declaredTypes dialect m).Nodup := by
  have htops : (exportedTypes m true).Nodup := (h.indexed.types.nodup h.rowsFit).filter _
  refine nodup_flatMap_of_source htops ?_ ?_
  · intro top htop
    have hfound := h.type?_eq_some_iff.mpr ⟨((mem_exportedTypes_iff h).mp htop).1, rfl⟩
    rw [declaredFor_eq h hfound]
    exact h.nodup_shownBelow hfound (h.exists_typeTree hfound)
  · intro first hfirst second hsecond type htype hagain
    exact (outermostAround_of_declaredFor h hfirst htype).2.unique
      (outermostAround_of_declaredFor h hsecond hagain).2

theorem mem_types_of_declared (h : m.NestsTypes) {type : TypeDefinition}
    (htype : type ∈ declaredTypes dialect m) : type ∈ m.types := by
  rcases List.mem_flatMap.mp htype with ⟨top, htop, hmem⟩
  exact (outermostAround_of_declaredFor h htop hmem).1

/-!
Which types are declared: one that stands in no other type always is, and one inside another type
if that type is declared and opened.
-/

theorem declared_of_top (h : m.NestsTypes) {type : TypeDefinition} (hmem : type ∈ m.types)
    (htop : type.declaringType = none) (hname : type.name ≠ modulePseudoType) :
    type ∈ declaredTypes dialect m :=
  List.mem_flatMap.mpr ⟨type, (mem_exportedTypes_iff h).mpr ⟨hmem, htop, hname⟩,
    (mem_declaredFor_iff h hmem).mpr ⟨hmem, .refl⟩⟩

theorem declared_inside_iff (h : m.NestsTypes) {outer inner : TypeDefinition}
    (houter : outer ∈ m.types) (hinner : inner ∈ m.types)
    (hdeclared : inner.declaringType = some outer.token) :
    inner ∈ declaredTypes dialect m ↔
      outer ∈ declaredTypes dialect m ∧ Listing.opensIn dialect outer = true := by
  have houterFound := h.type?_eq_some_iff.mpr ⟨houter, rfl⟩
  have hinnerFound := h.type?_eq_some_iff.mpr ⟨hinner, rfl⟩
  unfold declaredTypes
  rw [List.mem_flatMap, List.mem_flatMap]
  constructor
  · rintro ⟨top, htop, hreached⟩
    obtain ⟨htopRow, hnone, _⟩ := (mem_exportedTypes_iff h).mp htop
    obtain ⟨_, hreach⟩ := (mem_declaredFor_iff h htopRow).mp hreached
    rcases hreach.cases_tail with hsame | ⟨place, hfront, hstep⟩
    · have htopFound := h.type?_eq_some_iff.mpr ⟨htopRow, rfl⟩
      rw [← hsame, hinnerFound] at htopFound
      rw [Option.some.inj htopFound, hnone] at hdeclared
      cases hdeclared
    · rcases h.declared_of_step hstep with ⟨around, same, haround, hsame, hopens, hplace⟩
      rw [hinnerFound] at hsame
      obtain rfl := Option.some.inj hsame
      rw [hdeclared] at hplace
      obtain rfl := Option.some.inj hplace
      rw [houterFound] at haround
      obtain rfl := Option.some.inj haround
      exact ⟨⟨top, htop, (mem_declaredFor_iff h htopRow).mpr ⟨houter, hfront⟩⟩, hopens⟩
  · rintro ⟨⟨top, htop, hreached⟩, hopens⟩
    obtain ⟨htopRow, _, _⟩ := (mem_exportedTypes_iff h).mp htop
    obtain ⟨_, hreach⟩ := (mem_declaredFor_iff h htopRow).mp hreached
    have hstep := h.step_of_declared hinnerFound houterFound hdeclared hopens
    exact ⟨top, htop, (mem_declaredFor_iff h htopRow).mpr ⟨hinner, hreach.tail hstep⟩⟩

/-- Every type is declared exactly if no type stands inside one that the dialect keeps closed. -/
theorem all_declared_iff (dialect : Dialect) (h : m.NestsTypes) :
    (∀ type ∈ m.types, type.name ≠ modulePseudoType → type ∈ declaredTypes dialect m) ↔
      ∀ outer ∈ m.types, ∀ inner ∈ m.types, inner.name ≠ modulePseudoType →
        inner.declaringType = some outer.token → Listing.opensIn dialect outer = true := by
  constructor
  · intro hall outer houter inner hinner hname hdeclared
    exact ((declared_inside_iff h houter hinner hdeclared).mp (hall inner hinner hname)).2
  · intro hopens type hmem hname
    rcases h.ends type hmem with ⟨depth, hdepth⟩
    induction hdepth with
    | top htop => exact declared_of_top h hmem htop hname
    | @inside depth type outer token hdeclared houter _ ih =>
        obtain ⟨houterRow, rfl⟩ := h.type?_eq_some_iff.mp houter
        have houterName : outer.name ≠ modulePseudoType := by
          intro hpseudo
          have hinside := (h.listsDeclared.mem_typesInside_iff h.indexed h.rowsFit houterRow).mpr
            ⟨hmem, hdeclared⟩
          simp [CodeModule.typesInside, (h.pseudoType outer houterRow hpseudo).2.2] at hinside
        exact (declared_inside_iff h houterRow hmem hdeclared).mpr
          ⟨ih houterRow houterName, hopens outer houterRow type hmem hname hdeclared⟩

theorem token_mem_declared_iff (h : m.NestsTypes) {type : TypeDefinition} (hmem : type ∈ m.types) :
    type.token ∈ (declaredTypes dialect m).map TypeDefinition.token ↔
      type ∈ declaredTypes dialect m := by
  constructor
  · intro htoken
    rcases List.mem_map.mp htoken with ⟨other, hother, hsame⟩
    rw [← h.indexed.token_injective h.rowsFit (mem_types_of_declared h hother) hmem hsame]
    exact hother
  · exact List.mem_map_of_mem

theorem count_declared_le_one (dialect : Dialect) (h : m.NestsTypes) (token : Token) :
    ((declaredTypes dialect m).map TypeDefinition.token).count token ≤ 1 := by
  refine List.nodup_iff_count_le_one.mp ?_ token
  refine (nodup_declaredTypes h).map_on fun first hfirst second hsecond hsame => ?_
  exact h.indexed.token_injective h.rowsFit (mem_types_of_declared h hfirst)
    (mem_types_of_declared h hsecond) hsame

/-!
No text is missing in the plan of an export.
-/

theorem exists_text (dialect : Dialect) (h : m.NestsTypes) {top : TypeDefinition}
    (htop : top ∈ exportedTypes m true) :
    ∃ pieces, Listing.marked dialect m top.token = .ok pieces ∧
      Renderer.declarations.type dialect m top.token =
        .ok (Source.text (sources (Listing.declarationLine dialect m) pieces)) := by
  have hfound := h.type?_eq_some_iff.mpr ⟨((mem_exportedTypes_iff h).mp htop).1, rfl⟩
  rcases exists_marked_shownBelow dialect h hfound with ⟨pieces, hpieces, _⟩
  refine ⟨pieces, hpieces, (Listing.ofType_eq_marked dialect m top.token).trans ?_⟩
  rw [hpieces]
  rfl

theorem length_filterMap_of_isSome {α β : Type} {f : α → Option β} {items : List α}
    (h : ∀ item ∈ items, (f item).isSome = true) : (items.filterMap f).length = items.length := by
  rw [List.length_filterMap_eq_countP, List.countP_eq_length]
  exact h

theorem failures_ofModule {place : PlacedModule} (h : place.code.NestsTypes) (output : String) :
    (Plan.ofModule .declarations dialect place output true).failures = 0 := by
  have htext {dialect : Dialect} {top : TypeDefinition}
      (htop : top ∈ exportedTypes place.code true) :
      (Renderer.declarations.type dialect place.code top.token).toOption.isSome = true := by
    rcases exists_text dialect h htop with ⟨_, _, htext⟩
    rw [htext]
    rfl
  unfold Plan.ofModule
  dsimp only
  split
  · have hall : ∀ text ∈ Renderer.declarations.assembly .il place.displayPath place.code ::
          (exportedTypes place.code true).map fun type =>
            Renderer.declarations.type .il place.code type.token,
        text.toOption.isSome = true := by
      refine List.forall_mem_cons.mpr ⟨rfl, ?_⟩
      intro text hmem
      rcases List.mem_map.mp hmem with ⟨top, htop, rfl⟩
      exact htext htop
    exact Nat.sub_eq_zero_of_le (length_filterMap_of_isSome hall).ge
  · have hrendered : (rendered .declarations dialect place.code
        (exportedTypes place.code true)).length = (exportedTypes place.code true).length := by
      refine length_filterMap_of_isSome fun top htop => ?_
      rw [Option.isSome_map]
      exact htext htop
    have hfailures := Plan.failures_addTypes .declarations dialect place.code output []
      (({} : Plan).add (Path.join output "AssemblyInfo.cs")
        (Renderer.declarations.assembly dialect place.displayPath place.code))
      (exportedTypes place.code true)
    rw [hrendered] at hfailures
    exact Nat.add_right_cancel hfailures

/-- An export makes all its texts. Each declares types for which the type of the text is the
outermost one around them, and no type is declared twice. Every type is declared exactly if the
dialect is IL, or no type stands inside a delegate or an enumeration. -/
theorem every_type_declared_iff (place : PlacedModule) (dialect : Dialect) (output : String)
    (h : place.code.NestsTypes) :
    (Plan.ofModule .declarations dialect place output true).failures = 0 ∧
      (∀ top ∈ exportedTypes place.code true, ∃ pieces,
        Listing.marked dialect place.code top.token = .ok pieces ∧
        Renderer.declarations.type dialect place.code top.token =
          .ok (Source.text (sources (Listing.declarationLine dialect place.code) pieces)) ∧
        ∀ type ∈ declaredIn pieces,
          type ∈ place.code.types ∧ place.code.OutermostAround type top) ∧
      (∀ token,
        ((declaredTypes dialect place.code).map TypeDefinition.token).count token ≤ 1) ∧
      ((∀ type ∈ place.code.types, type.name ≠ modulePseudoType →
          ((declaredTypes dialect place.code).map TypeDefinition.token).count type.token = 1) ↔
        dialect.isIl = true ∨
          ∀ outer ∈ place.code.types, ∀ inner ∈ place.code.types, inner.name ≠ modulePseudoType →
            inner.declaringType = some outer.token →
              outer.kind ≠ .delegateType ∧ outer.kind ≠ .enumType) := by
  have honce {type : TypeDefinition} (hmem : type ∈ place.code.types) :
      ((declaredTypes dialect place.code).map TypeDefinition.token).count type.token = 1 ↔
        type ∈ declaredTypes dialect place.code := by
    rw [← token_mem_declared_iff h hmem, ← List.count_pos_iff]
    have hle := count_declared_le_one dialect h type.token
    omega
  refine ⟨failures_ofModule h output, ?_, count_declared_le_one dialect h, ?_⟩
  · intro top htop
    rcases exists_text dialect h htop with ⟨pieces, hpieces, htext⟩
    refine ⟨pieces, hpieces, htext, fun type htype => ?_⟩
    have hfor : type ∈ declaredFor dialect place.code top.token := by
      unfold declaredFor
      rw [hpieces]
      exact htype
    exact outermostAround_of_declaredFor h htop hfor
  · have hdeclared := all_declared_iff dialect h
    constructor
    · intro hall
      rw [or_iff_not_imp_left]
      intro hcsharp outer houter inner hinner hname hinside
      have hopens := hdeclared.mp
        (fun type hmem hother => (honce hmem).mp (hall type hmem hother)) outer houter inner hinner
        hname hinside
      exact (Listing.opensIn_iff.mp hopens).resolve_left hcsharp
    · intro hopens type hmem hname
      refine (honce hmem).mpr (hdeclared.mpr ?_ type hmem hname)
      intro outer houter inner hinner hother hinside
      exact Listing.opensIn_iff.mpr
        (hopens.imp_right fun hkinds => hkinds outer houter inner hinner hother hinside)

/-- Without types inside enumerations and delegates C# declares every type, too. -/
theorem every_type_declared_iff_nested :
    nestedModule.NestsTypes ∧
      ∀ type ∈ nestedModule.types, type.name ≠ modulePseudoType →
        ((declaredTypes .csharpLatest nestedModule).map TypeDefinition.token).count type.token =
          1 := by
  refine ⟨nestedModule_browsable.nestsTypes, ?_⟩
  refine (every_type_declared_iff (onlyPlace nestedModule) .csharpLatest ""
    nestedModule_browsable.nestsTypes).2.2.2.mpr (.inr ?_)
  decide

/-- An enumeration with a class inside it. -/
def peopledEnum : CodeModule :=
  (CodeModule.ofSteps "M"
    [.type "N" "E" .enumType 0, .nestedType (TableId.typeDef.token 2) "C" .classType 0]).1

theorem peopledEnum_nestsTypes : peopledEnum.NestsTypes where
  indexed := CodeModule.indexed_ofSteps "M" _
  rowsFit := by decide
  ends := by
    intro type hmem
    rcases Array.mem_iff_getElem.mp hmem with ⟨index, hindex, rfl⟩
    match index, hindex with
    | 0, _ => exact ⟨0, .top rfl⟩
    | 1, _ => exact ⟨0, .top rfl⟩
    | 2, _ => exact ⟨1, .inside rfl rfl (.top rfl)⟩
  listsDeclared := by
    unfold CodeModule.ListsDeclared
    decide
  pseudoType := by decide

/-- In C# the class is not declared by the only text of the export. -/
theorem class_in_enum_not_declared :
    peopledEnum.NestsTypes ∧
      (∃ type ∈ peopledEnum.types, type.name = "C" ∧
        ((declaredTypes .csharpLatest peopledEnum).map TypeDefinition.token).count type.token =
          0) ∧
      (exportedTypes peopledEnum true).map TypeDefinition.token = [TableId.typeDef.token 2] ∧
      Renderer.declarations.type .csharpLatest peopledEnum (TableId.typeDef.token 2) =
        .ok "namespace N\n\x7b\n    internal enum E\n    \x7b\n    \x7d\n\x7d\n" := by
  refine ⟨peopledEnum_nestsTypes, by decide +kernel, by decide +kernel, by decide +kernel⟩

end Export
end AssemblyBrowser
