import AssemblyBrowser.Browse.Children
import AssemblyBrowser.Proofs.Browsing.Nesting
import AssemblyBrowser.Proofs.SearchOrder

/-!
# What stands under modules and types

The nodes of a module are unfolded by asking for what stands under a namespace
or a type, again and again. The types and members that turn up are collected;
groups of related types stay closed. What is collected does not depend on the
order of the nodes, and it can be found level by level.

Under a module stand its namespaces, and under a type the types inside it.
Everything else stays closed when a tree is unfolded: members, which are counted,
and groups, references and resources, which are not.
-/

namespace AssemblyBrowser

/-!
## Unfolding a tree of nodes
-/

namespace NodeKind

/-- Whether a node of the kind is unfolded. -/
def isUnfolded (kind : NodeKind) : Bool := kind == .namespaceNode || kind.isType

/-- Whether a node of the kind shows a type or a member. -/
def isDefinition (kind : NodeKind) : Bool := kind.isType || kind.isMember

end NodeKind

def Node.isDefinition (node : Node) : Bool := node.address.kind.isDefinition

namespace Store

variable {store : Store} {resolver : Resolver} {source : ArchiveSource}

/-- Which types and members turn up when the nodes of a list are unfolded as far as they go. -/
inductive Unfolds (store : Store) (resolver : Resolver) (source : ArchiveSource) :
    List Node → List Node → Prop
  | nil : Unfolds store resolver source [] []
  | closed {node : Node} {rest beside : List Node}
      (hclosed : node.address.kind.isUnfolded = false)
      (hrest : Unfolds store resolver source rest beside) :
      Unfolds store resolver source (node :: rest) ([node].filter Node.isDefinition ++ beside)
  | opened {node : Node} {rest children below beside : List Node}
      (hopened : node.address.kind.isUnfolded = true)
      (hchildren : store.children resolver source node.address = (store, .ok children))
      (hbelow : Unfolds store resolver source children below)
      (hrest : Unfolds store resolver source rest beside) :
      Unfolds store resolver source (node :: rest)
        ([node].filter Node.isDefinition ++ below ++ beside)

namespace Unfolds

variable {nodes others reached : List Node}

theorem unique (h : Unfolds store resolver source nodes reached)
    (hothers : Unfolds store resolver source nodes others) : reached = others := by
  induction h generalizing others with
  | nil =>
      cases hothers
      rfl
  | closed hclosed _ ih =>
      cases hothers with
      | closed _ hrest => rw [ih hrest]
      | opened hopened => simp [hclosed] at hopened
  | opened hopened hchildren _ _ ihBelow ihRest =>
      cases hothers with
      | closed hclosed => simp [hopened] at hclosed
      | opened _ hagain hbelow hrest =>
          rw [hchildren] at hagain
          cases hagain
          rw [ihBelow hbelow, ihRest hrest]

theorem append {first second : List Node} (hnodes : Unfolds store resolver source nodes first)
    (hothers : Unfolds store resolver source others second) :
    Unfolds store resolver source (nodes ++ others) (first ++ second) := by
  induction hnodes with
  | nil => exact hothers
  | closed hclosed _ ih =>
      rw [List.cons_append, List.append_assoc]
      exact .closed hclosed ih
  | opened hopened hchildren hbelow _ _ ihRest =>
      rw [List.cons_append, List.append_assoc]
      exact .opened hopened hchildren hbelow ihRest

theorem append_inv (h : Unfolds store resolver source (nodes ++ others) reached) :
    ∃ first second, reached = first ++ second ∧ Unfolds store resolver source nodes first ∧
      Unfolds store resolver source others second := by
  induction nodes generalizing reached with
  | nil => exact ⟨[], reached, rfl, .nil, h⟩
  | cons node rest ih =>
      cases h with
      | closed hclosed hrest =>
          rcases ih hrest with ⟨first, second, rfl, hfirst, hsecond⟩
          exact ⟨_, second, (List.append_assoc _ _ _).symm, .closed hclosed hfirst, hsecond⟩
      | opened hopened hchildren hbelow hrest =>
          rcases ih hrest with ⟨first, second, rfl, hfirst, hsecond⟩
          exact ⟨_, second, (List.append_assoc _ _ _).symm,
            .opened hopened hchildren hbelow hfirst, hsecond⟩

/-- Nodes in another order lead to the same ones in another order. -/
theorem perm (hperm : nodes.Perm others) (h : Unfolds store resolver source nodes reached) :
    ∃ again, Unfolds store resolver source others again ∧ reached.Perm again := by
  induction hperm generalizing reached with
  | nil => exact ⟨reached, h, .refl reached⟩
  | cons node _ ih =>
      cases h with
      | closed hclosed hrest =>
          rcases ih hrest with ⟨again, hagain, hperm⟩
          exact ⟨_, .closed hclosed hagain, hperm.append_left _⟩
      | opened hopened hchildren hbelow hrest =>
          rcases ih hrest with ⟨again, hagain, hperm⟩
          exact ⟨_, .opened hopened hchildren hbelow hagain, hperm.append_left _⟩
  | swap first second rest =>
      have hsplit : Unfolds store resolver source ([second] ++ ([first] ++ rest)) reached := h
      rcases hsplit.append_inv with ⟨own, both, rfl, hsecond, hboth⟩
      rcases hboth.append_inv with ⟨other, beside, rfl, hfirst, hrest⟩
      refine ⟨other ++ (own ++ beside), hfirst.append (hsecond.append hrest), ?_⟩
      rw [← List.append_assoc, ← List.append_assoc]
      exact List.perm_append_comm.append_right beside
  | trans _ _ ihFirst ihSecond =>
      rcases ihFirst h with ⟨between, hbetween, hfirst⟩
      rcases ihSecond hbetween with ⟨again, hagain, hsecond⟩
      exact ⟨again, hagain, hfirst.trans hsecond⟩

theorem of_closed (hclosed : ∀ node ∈ nodes, node.address.kind.isUnfolded = false) :
    Unfolds store resolver source nodes (nodes.filter Node.isDefinition) := by
  induction nodes with
  | nil => exact .nil
  | cons node rest ih =>
      rw [← List.singleton_append, List.filter_append]
      exact .closed (hclosed node List.mem_cons_self)
        (ih fun other hmem => hclosed other (List.mem_cons_of_mem node hmem))

/-- The nodes of a level are unfolded by unfolding the next level, which is all that stands under
them. -/
theorem of_level {α : Type} {items : List α} {node : α → Node} {under : α → List Node}
    {below : List Node} (hopened : ∀ item ∈ items, (node item).address.kind.isUnfolded = true)
    (hunder : ∀ item ∈ items,
      store.children resolver source (node item).address = (store, .ok (under item)))
    (hbelow : Unfolds store resolver source (items.flatMap under) below) :
    ∃ reached, Unfolds store resolver source (items.map node) reached ∧
      reached.Perm ((items.map node).filter Node.isDefinition ++ below) := by
  induction items generalizing below with
  | nil =>
      cases hbelow
      exact ⟨[], .nil, .refl []⟩
  | cons item rest ih =>
      rw [List.flatMap_cons] at hbelow
      rcases hbelow.append_inv with ⟨own, others, rfl, hown, hothers⟩
      rcases ih (fun other hmem => hopened other (List.mem_cons_of_mem item hmem))
        (fun other hmem => hunder other (List.mem_cons_of_mem item hmem)) hothers with
        ⟨reached, hreached, hperm⟩
      refine ⟨_, .opened (hopened item List.mem_cons_self) (hunder item List.mem_cons_self) hown
        hreached, ?_⟩
      have hsplit : ((item :: rest).map node).filter Node.isDefinition =
          [node item].filter Node.isDefinition ++ (rest.map node).filter Node.isDefinition :=
        List.filter_append [node item] (rest.map node)
      rw [hsplit, List.append_assoc, List.append_assoc]
      refine List.Perm.append_left _ ((hperm.append_left own).trans ?_)
      rw [← List.append_assoc, ← List.append_assoc]
      exact List.perm_append_comm.append_right others

end Unfolds

/-- Which types and members turn up when all namespaces of a module are unfolded, and all types in
them. -/
def Browses (store : Store) (resolver : Resolver) (source : ArchiveSource) (place : PlacedModule)
    (reached : List Node) : Prop :=
  ∃ children, store.children resolver source
      (.assembly place.archivePath place.containerPath) = (store, .ok children) ∧
    Unfolds store resolver source children reached

/-- Browsing a module has one outcome. -/
theorem Browses.unique {place : PlacedModule} {reached others : List Node}
    (h : Browses store resolver source place reached)
    (hothers : Browses store resolver source place others) : reached = others := by
  rcases h with ⟨children, hchildren, hreached⟩
  rcases hothers with ⟨_, hagain, hothers⟩
  rw [hchildren] at hagain
  cases hagain
  exact hreached.unique hothers

end Store

/-!
## Modules and types
-/

theorem Node.sortByName_perm (nodes : List Node) : (sortByName nodes).Perm nodes :=
  List.mergeSort_perm nodes _

namespace PlacedModule

/-- The nodes of the members that a type shows. -/
def ownMemberNodes (place : PlacedModule) (type : TypeDefinition) : List Node :=
  ((type.memberTokens.filterMap place.code.entity?).filter isShown).map place.entityNode

/-- The nodes of a type and of the members that it shows. -/
def ownNodes (place : PlacedModule) (type : TypeDefinition) : List Node :=
  place.typeNode type :: place.ownMemberNodes type

/-- The groups of supertypes and of subtypes of a type. -/
def relativeNodes (place : PlacedModule) (type : TypeDefinition) : List Node :=
  (if type.hasBaseTypes then [place.groupNode .baseTypesGroup "Base Types" type.token] else [])
    ++ (if type.canHaveDerivedTypes then
          [place.groupNode .derivedTypesGroup "Derived Types" type.token]
        else [])

/-- The nodes under a type that stay closed: its members and its groups. -/
def closedNodes (place : PlacedModule) (type : TypeDefinition) : List Node :=
  place.relativeNodes type ++ place.ownMemberNodes type
    ++ [place.groupNode .analyzerGroup "Used By" type.token]

/-- The references and the resources of a module. -/
def otherNodes (place : PlacedModule) : List Node :=
  (if place.code.references.isEmpty then []
    else
      [{ address := .referencesRoot place.archivePath place.containerPath
         displayName := "References"
         mayHaveChildren := true }])
    ++ Node.sortByName (place.code.resources.toList.map place.resourceNode)

theorem isUnfolded_typeNode (place : PlacedModule) (type : TypeDefinition) :
    (place.typeNode type).address.kind.isUnfolded = true := by
  cases hkind : type.kind <;> simp [typeNode, NodeAddress.definition, hkind] <;> rfl

theorem isDefinition_typeNode (place : PlacedModule) (type : TypeDefinition) :
    (place.typeNode type).isDefinition = true := by
  cases hkind : type.kind <;> simp [Node.isDefinition, typeNode, NodeAddress.definition, hkind] <;>
    rfl

variable {place : PlacedModule} {type : TypeDefinition}

/-- The nodes of members are counted and not unfolded. -/
theorem kind_of_mem_ownMemberNodes (h : place.code.Browsable) (hmem : type ∈ place.code.types)
    {node : Node} (hnode : node ∈ place.ownMemberNodes type) :
    node.address.kind.isUnfolded = false ∧ node.isDefinition = true := by
  rcases List.mem_map.mp hnode with ⟨entity, hentity, rfl⟩
  rcases List.mem_filterMap.mp (List.mem_of_mem_filter hentity) with ⟨token, htoken, hfound⟩
  cases entity with
  | type inner =>
      have htable := (CodeModule.type?_eq_some.mp (CodeModule.entity?_eq_some.mp hfound)).1
      exact absurd htable (h.indexed.table_ne_of_listed hmem htoken)
  | field field =>
      cases hliteral : field.isLiteral <;>
        simp [Node.isDefinition, entityNode, NodeAddress.definition, NodeKind.ofEntity, hliteral,
          NodeKind.isUnfolded, NodeKind.isDefinition, NodeKind.isType, NodeKind.isMember]
  | method method => exact ⟨rfl, rfl⟩
  | property property => exact ⟨rfl, rfl⟩
  | event event => exact ⟨rfl, rfl⟩

/-- Groups are neither counted nor unfolded. -/
theorem kind_of_mem_relativeNodes {node : Node} (hnode : node ∈ place.relativeNodes type) :
    node.address.kind.isUnfolded = false ∧ node.isDefinition = false := by
  simp only [relativeNodes, List.mem_append] at hnode
  rcases hnode with hbase | hderived
  · split at hbase
    · rw [List.mem_singleton.mp hbase]
      exact ⟨rfl, rfl⟩
    · cases hbase
  · split at hderived
    · rw [List.mem_singleton.mp hderived]
      exact ⟨rfl, rfl⟩
    · cases hderived

theorem kind_of_mem_otherNodes {node : Node} (hnode : node ∈ place.otherNodes) :
    node.address.kind.isUnfolded = false ∧ node.isDefinition = false := by
  rcases List.mem_append.mp hnode with hreferences | hresource
  · split at hreferences
    · cases hreferences
    · rw [List.mem_singleton.mp hreferences]
      exact ⟨rfl, rfl⟩
  · rcases List.mem_map.mp ((Node.sortByName_perm _).mem_iff.mp hresource) with ⟨resource, _, rfl⟩
    exact ⟨rfl, rfl⟩

theorem isUnfolded_closedNodes (h : place.code.Browsable) (hmem : type ∈ place.code.types)
    {node : Node} (hnode : node ∈ place.closedNodes type) :
    node.address.kind.isUnfolded = false := by
  simp only [closedNodes, List.mem_append] at hnode
  rcases hnode with (hrelative | hown) | husers
  · exact (kind_of_mem_relativeNodes hrelative).1
  · exact (kind_of_mem_ownMemberNodes h hmem hown).1
  · rw [List.mem_singleton.mp husers]
    rfl

theorem definitions_closedNodes (h : place.code.Browsable) (hmem : type ∈ place.code.types) :
    (place.closedNodes type).filter Node.isDefinition = place.ownMemberNodes type := by
  have hown : (place.ownMemberNodes type).filter Node.isDefinition = place.ownMemberNodes type :=
    List.filter_eq_self.mpr fun node hnode => (kind_of_mem_ownMemberNodes h hmem hnode).2
  have hrelative : (place.relativeNodes type).filter Node.isDefinition = [] :=
    List.filter_eq_nil_iff.mpr fun node hnode => by simp [(kind_of_mem_relativeNodes hnode).2]
  rw [closedNodes, List.filter_append, List.filter_append, hown, hrelative]
  exact List.append_nil _

/-- The nodes of members and of the types inside a type. -/
theorem memberNodes_perm (h : place.code.Browsable) (hmem : type ∈ place.code.types) :
    (place.memberNodes type).Perm
      ((place.code.typesInside type).map place.typeNode ++ place.ownMemberNodes type) := by
  have hnested : type.nestedTypes.filterMap place.code.entity? =
      (place.code.typesInside type).map .type := by
    rw [CodeModule.typesInside, List.map_filterMap]
    refine List.filterMap_congr fun token htoken => ?_
    have hnames := (h.indexed.lists type hmem).nestedTypes token htoken
    rcases h.indexed.types.exists_byRow h.rowsFit hnames with ⟨inner, hinner⟩
    have htype : place.code.type? token = some inner := hinner
    have hentity : place.code.entity? token = some (.type inner) :=
      CodeModule.entity?_eq_some.mpr htype
    rw [hentity, htype]
    rfl
  have htokens : type.nestedTypes ++ type.fields ++ type.properties ++ type.events ++ type.methods =
      type.nestedTypes ++ type.memberTokens := by
    simp only [TypeDefinition.memberTokens, List.append_assoc]
  have hshown (types : List TypeDefinition) :
      ((types.map Entity.type).filter isShown).map place.entityNode = types.map place.typeNode := by
    rw [List.filter_eq_self.mpr fun entity hentity => ?_, List.map_map]
    · rfl
    · rcases List.mem_map.mp hentity with ⟨_, _, rfl⟩
      rfl
  refine (Node.sortByName_perm _).trans (List.Perm.of_eq ?_)
  rw [htokens, List.filterMap_append, hnested, List.filter_append, List.map_append, hshown]
  rfl

/-- Under a type stand the types inside it and nodes that stay closed. -/
theorem typeChildren_perm (h : place.code.Browsable) (hmem : type ∈ place.code.types) :
    (place.typeChildren type).Perm
      ((place.code.typesInside type).map place.typeNode ++ place.closedNodes type) := by
  change (place.relativeNodes type ++ place.memberNodes type ++ _).Perm _
  refine (((memberNodes_perm h hmem).append_left _).append_right _).trans ?_
  rw [closedNodes, List.append_assoc, List.append_assoc, List.append_assoc]
  exact List.perm_append_comm_assoc _ _ _

/-- Under a module stand its namespaces, and references and resources. -/
theorem children_perm (place : PlacedModule) :
    place.children.Perm (place.code.namespaces.map place.namespaceNode ++ place.otherNodes) := by
  rw [otherNodes]
  refine (List.Perm.append_right _ ((Node.sortByName_perm _).append_left _)).trans ?_
  rw [List.append_assoc]
  exact List.perm_append_comm_assoc _ _ _

end PlacedModule
end AssemblyBrowser
