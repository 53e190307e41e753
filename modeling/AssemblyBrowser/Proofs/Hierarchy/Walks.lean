import AssemblyBrowser.Proofs.Files.Canonical
import AssemblyBrowser.Proofs.Hierarchy.Lookups

/-!
# Walks over base types

A supertype that has been looked up is shown as the type that was found, or as
one that could not be resolved, or not at all. The two kinds of nodes never look
alike, and the node of a type tells which one it is. A walk meets each name once.
Whatever its bounds say, it comes to its end: it takes the supertypes of each name
once from a definition of that name, and each archive that it opens is another file.
-/

namespace AssemblyBrowser

/-!
## What is shown for a supertype
-/

namespace PlacedType

def fullName (type : PlacedType) : String := type.place.code.fullName type.definition.token

def supertypes (type : PlacedType) : List Supertype := Supertype.ofType type.place type.definition

def node (type : PlacedType) : Node := type.place.typeNode type.definition

def isInterface (type : PlacedType) : Bool := type.definition.kind == .interfaceType

theorem origin_of_mem_supertypes {store : Store} {type : PlacedType}
    (hplace : type.place ∈ store.modules) :
    ∀ next ∈ type.supertypes, next.origin ∈ store.modules := by
  intro next hnext
  rw [Resolver.origin_of_mem_ofType hnext]
  exact hplace

theorem node_ne_unresolvedNode (type : PlacedType) (supertype : Supertype) (name : TypeName) :
    type.node ≠ supertype.unresolvedNode name := by
  intro h
  have hbadges : Badges.ofName type.definition.name = Badges.unresolved :=
    congrArg Node.badges h
  unfold Badges.ofName Badges.when at hbadges
  split at hbadges <;> cases hbadges

end PlacedType

namespace PlacedModule

theorem findType?_eq_some {place : PlacedModule} {fullName : String} {found : PlacedType}
    (h : place.findType? fullName = some found) :
    found.place = place ∧ found.fullName = fullName := by
  rcases Option.map_eq_some_iff.mp h with ⟨definition, hfound, rfl⟩
  have hname := List.find?_some hfound
  exact ⟨rfl, eq_of_beq hname⟩

theorem findType?_ne_none {found : PlacedType}
    (h : found.definition ∈ found.place.code.types) :
    found.place.findType? found.fullName ≠ none := by
  intro hnone
  have hmissing := List.find?_eq_none.mp (Option.map_eq_none_iff.mp hnone) found.definition
    (List.mem_reverse.mpr (Array.mem_toList_iff.mpr h))
  exact hmissing (beq_self_eq_true found.fullName)

end PlacedModule

namespace Resolver

/-- A supertype that a walk has met, with its name and what was found for it. -/
structure Meeting where
  supertype : Supertype
  name : TypeName
  definition : Option PlacedType

namespace Meeting

/-- The node that is shown for what was met, if any. -/
def node (interfacesOnly : Bool) (meeting : Meeting) : Option Node :=
  (visit interfacesOnly meeting.supertype meeting.name meeting.definition).1

/-- The supertypes that follow what was met. -/
def following (interfacesOnly : Bool) (meeting : Meeting) : List Supertype :=
  (visit interfacesOnly meeting.supertype meeting.name meeting.definition).2

/-- The meeting of a supertype in a store. -/
def ofLookup (resolver : Resolver) (source : ArchiveSource) (store : Store) (supertype : Supertype)
    (name : TypeName) : Meeting :=
  { supertype, name, definition := (resolver.definition source store supertype.origin name).2 }

/-- How a supertype appears in a walk, and what follows it. -/
inductive Appears (interfacesOnly : Bool) (meeting : Meeting) : Prop where
  | resolved (found : PlacedType) (hdefinition : meeting.definition = some found)
      (hkind : interfacesOnly = true → found.isInterface = true)
      (hnode : meeting.node interfacesOnly = some found.node)
      (hfollowing : meeting.following interfacesOnly =
        if meeting.name.isObject then [] else found.supertypes)
  | filtered (found : PlacedType) (hdefinition : meeting.definition = some found)
      (honly : interfacesOnly = true) (hkind : found.isInterface = false)
      (hnode : meeting.node interfacesOnly = none)
      (hfollowing : meeting.following interfacesOnly = [])
  | unresolved (hdefinition : meeting.definition = none)
      (hkind : interfacesOnly = true → meeting.supertype.isInterface = true)
      (hnode : meeting.node interfacesOnly =
        some (meeting.supertype.unresolvedNode meeting.name))
      (hfollowing : meeting.following interfacesOnly = [])
  | ignored (hdefinition : meeting.definition = none) (honly : interfacesOnly = true)
      (hkind : meeting.supertype.isInterface = false)
      (hnode : meeting.node interfacesOnly = none)
      (hfollowing : meeting.following interfacesOnly = [])

theorem appears (interfacesOnly : Bool) (meeting : Meeting) : meeting.Appears interfacesOnly := by
  have hnode : meeting.node interfacesOnly =
      (visit interfacesOnly meeting.supertype meeting.name meeting.definition).1 := rfl
  have hfollowing : meeting.following interfacesOnly =
      (visit interfacesOnly meeting.supertype meeting.name meeting.definition).2 := rfl
  cases hdefinition : meeting.definition with
  | some found =>
      rw [hdefinition, visit] at hnode hfollowing
      split at hnode
      case isTrue hhidden =>
        rw [if_pos hhidden] at hfollowing
        rw [Bool.and_eq_true, bne_iff_ne] at hhidden
        exact .filtered found hdefinition hhidden.1 (beq_eq_false_iff_ne.mpr hhidden.2) hnode
          hfollowing
      case isFalse hshown =>
        rw [if_neg hshown] at hfollowing
        refine .resolved found hdefinition (fun honly => ?_) hnode hfollowing
        simpa [honly, PlacedType.isInterface] using hshown
  | none =>
      rw [hdefinition, visit] at hnode hfollowing
      split at hnode
      case isTrue hhidden =>
        rw [if_pos hhidden] at hfollowing
        rw [Bool.and_eq_true, Bool.not_eq_true'] at hhidden
        exact .ignored hdefinition hhidden.1 hhidden.2 hnode hfollowing
      case isFalse hshown =>
        rw [if_neg hshown] at hfollowing
        refine .unresolved hdefinition (fun honly => ?_) hnode hfollowing
        simpa [honly] using hshown

theorem following_cases (interfacesOnly : Bool) (meeting : Meeting) :
    meeting.following interfacesOnly = [] ∨
      ∃ found, meeting.definition = some found ∧
        meeting.following interfacesOnly = found.supertypes := by
  cases meeting.appears interfacesOnly with
  | resolved found hdefinition hkind hnode hfollowing =>
      cases hobject : meeting.name.isObject with
      | true => exact .inl (by rw [hfollowing, hobject]; rfl)
      | false => exact .inr ⟨found, hdefinition, by rw [hfollowing, hobject]; rfl⟩
  | filtered found hdefinition honly hkind hnode hfollowing => exact .inl hfollowing
  | unresolved hdefinition hkind hnode hfollowing => exact .inl hfollowing
  | ignored hdefinition honly hkind hnode hfollowing => exact .inl hfollowing

/-- A meeting shows the type that was found, or it shows no type and nothing follows it. -/
theorem shown_or_hidden (interfacesOnly : Bool) (meeting : Meeting) :
    (∃ found, meeting.definition = some found ∧
        meeting.node interfacesOnly = some found.node) ∨
      meeting.following interfacesOnly = [] ∧
        ∀ found : PlacedType, meeting.node interfacesOnly ≠ some found.node := by
  have hnone (hnode : meeting.node interfacesOnly = none) (found : PlacedType) :
      meeting.node interfacesOnly ≠ some found.node := by
    rw [hnode]
    exact nofun
  cases meeting.appears interfacesOnly with
  | resolved found hdefinition hkind hnode hfollowing => exact .inl ⟨found, hdefinition, hnode⟩
  | filtered found hdefinition honly hkind hnode hfollowing => exact .inr ⟨hfollowing, hnone hnode⟩
  | unresolved hdefinition hkind hnode hfollowing =>
      refine .inr ⟨hfollowing, fun found hfound => ?_⟩
      rw [hnode] at hfound
      exact PlacedType.node_ne_unresolvedNode _ _ _ (Option.some.inj hfound).symm
  | ignored hdefinition honly hkind hnode hfollowing => exact .inr ⟨hfollowing, hnone hnode⟩

/-- What was found, if anything, is a type of the store that has the name of the supertype. -/
def FoundIn (store : Store) (meeting : Meeting) : Prop :=
  ∀ found, meeting.definition = some found →
    found.place ∈ store.modules ∧ found.place.findType? meeting.name.fullName = some found

theorem FoundIn.mono {store after : Store} {meeting : Meeting} (h : meeting.FoundIn store)
    (hgrows : store.GrowsTo after) : meeting.FoundIn after := fun found hfound =>
  ⟨hgrows.mem_modules (h found hfound).1, (h found hfound).2⟩

theorem FoundIn.fullName {store : Store} {meeting : Meeting} (h : meeting.FoundIn store)
    {found : PlacedType} (hfound : meeting.definition = some found) :
    found.fullName = meeting.name.fullName :=
  (PlacedModule.findType?_eq_some (h found hfound).2).2

theorem FoundIn.defines {store : Store} {meeting : Meeting} (h : meeting.FoundIn store)
    {found : PlacedType} (hfound : meeting.definition = some found) : store.Defines found :=
  PlacedModule.defines_of_findType? (h found hfound).1 (h found hfound).2

end Meeting
end Resolver

/-!
## Telling nodes apart
-/

namespace PlacedType

/-- The node of a type in the store leads to its module and gives its token away. -/
theorem eq_of_node_eq {store : Store} (hstore : store.WellFormed) {type other : PlacedType}
    (htype : type.place ∈ store.modules) (hother : other.place ∈ store.modules)
    (h : type.node = other.node) :
    type.place = other.place ∧ type.definition.token = other.definition.token := by
  have haddress : type.node.address = other.node.address := congrArg Node.address h
  have hleads (found : PlacedType) (hfound : found.place ∈ store.modules) :
      store.placeOf (.ofFiles .standard {}) found.node.address = .ok found.place :=
    Store.placeOf_eq hstore.paths_nodup hfound rfl rfl
  have hplace := (hleads type htype).symm.trans (haddress ▸ hleads other hother)
  exact ⟨Except.ok.inj hplace, congrArg NodeAddress.symbolToken haddress⟩

end PlacedType

/-!
## Bounds
-/

section Picking

variable {α : Type} (size : α → Nat) (fewer more : α → Bool)
  (hfewer : ∀ x, fewer x = true → more x = true)

include hfewer

theorem sum_map_filter_le (items : List α) :
    ((items.filter fewer).map size).sum ≤ ((items.filter more).map size).sum := by
  induction items with
  | nil => exact Nat.le_refl _
  | cons y rest ih =>
      cases hy : fewer y with
      | true => simpa [hy, hfewer y hy] using ih
      | false => cases hy' : more y <;> simp [hy, hy'] <;> omega

/-- An element that is no longer picked is missing from the sum. -/
theorem sum_map_filter_add_le {x : α} (hmore : more x = true) (hnot : fewer x = false)
    {items : List α} (hmem : x ∈ items) :
    ((items.filter fewer).map size).sum + size x ≤ ((items.filter more).map size).sum := by
  induction items with
  | nil => cases hmem
  | cons y rest ih =>
      rcases List.mem_cons.mp hmem with rfl | hrest
      · have hle := sum_map_filter_le size fewer more hfewer rest
        simp [hmore, hnot]
        omega
      · have hle := ih hrest
        cases hy : fewer y with
        | true => simp [hy, hfewer y hy]; omega
        | false => cases hy' : more y <;> simp [hy, hy'] <;> omega

end Picking

namespace Store

/-- The types of all modules. -/
def definitions (store : Store) : List PlacedType :=
  store.modules.flatMap fun place =>
    place.code.types.toList.map fun definition => { place, definition }

theorem mem_definitions {store : Store} {type : PlacedType} :
    type ∈ store.definitions ↔ store.Defines type := by
  constructor
  · intro h
    rcases List.mem_flatMap.mp h with ⟨place, hplace, htype⟩
    rcases List.mem_map.mp htype with ⟨definition, hdefinition, rfl⟩
    exact ⟨hplace, Array.mem_toList_iff.mp hdefinition⟩
  · intro h
    exact List.mem_flatMap.mpr ⟨type.place, h.1,
      List.mem_map.mpr ⟨type.definition, Array.mem_toList_iff.mpr h.2, rfl⟩⟩

/-- The number of supertypes that the definitions of names name that have not been met. -/
def pendingCount (store : Store) (seen : List String) : Nat :=
  ((store.definitions.filter fun type => !seen.contains type.fullName).map
    (·.supertypes.length)).sum

theorem pendingCount_le (store : Store) (seen : List String) :
    store.pendingCount seen ≤ store.supertypeCount := by
  have hall : store.supertypeCount =
      ((store.definitions.filter fun _ => true).map (·.supertypes.length)).sum := by
    rw [List.filter_true, ← List.length_flatMap]
    simp only [supertypeCount, definitions, List.flatMap_assoc, List.flatMap_map]
    rfl
  rw [hall]
  exact sum_map_filter_le _ _ _ (fun _ _ => rfl) _

theorem pendingCount_cons {store : Store} {seen : List String} {fullName : String}
    {found : PlacedType} (hfound : store.Defines found) (hname : found.fullName = fullName)
    (hnew : fullName ∉ seen) :
    store.pendingCount (fullName :: seen) + found.supertypes.length ≤ store.pendingCount seen := by
  refine sum_map_filter_add_le (fun type : PlacedType => type.supertypes.length) _ _ ?_ ?_ ?_
    (mem_definitions.mpr hfound)
  · intro type
    simp
  · simpa [hname] using hnew
  · simp [hname]

end Store

namespace ArchiveSource

/-- The number of entries of the file system that are not open. -/
def closedFiles (source : ArchiveSource) (store : Store) : Nat :=
  (source.files.entries.filter fun entry =>
    !store.paths.contains (FileSystem.placeText entry.1)).length

theorem closedFiles_le (source : ArchiveSource) (store : Store) :
    source.closedFiles store ≤ source.fileCount := List.length_filter_le _ _

/-- A file that is opened is one less that is not. -/
theorem closedFiles_lt {source : ArchiveSource}
    (hcanonical : source.normalize = source.files.normalize) {store after : Store}
    (hgrows : store.GrowsTo after) {path : String}
    (hfile : source.isFile path = true) (hnew : source.normalize path ∉ store.paths)
    (hopen : source.normalize path ∈ after.paths) :
    source.closedFiles after < source.closedFiles store := by
  rcases FileSystem.exists_entry_of_isFile hfile with ⟨entry, hentry, hpath⟩
  rw [hcanonical, hpath] at hnew hopen
  have hle := sum_map_filter_add_le (fun _ => 1)
    (fun entry => !after.paths.contains (FileSystem.placeText entry.1))
    (fun entry => !store.paths.contains (FileSystem.placeText entry.1))
    (fun other hother => by simpa using fun h => by simp [hgrows.mem_paths h] at hother)
    (by simpa using hnew) (by simpa using hopen) hentry
  simp only [List.map_const', List.sum_replicate_nat, Nat.mul_one] at hle
  exact hle

end ArchiveSource

namespace Resolver

/-!
## Walks without bounds
-/

/-- The walk from a queue to its end: the store that it leaves, and what it has met that had not
been seen before. -/
inductive Walks (resolver : Resolver) (source : ArchiveSource) (interfacesOnly : Bool) :
    Store → (seen : List String) → List Supertype → Store → List Meeting → Prop where
  | done (store : Store) (seen : List String) :
      Walks resolver source interfacesOnly store seen [] store []
  | nameless {store final : Store} {seen : List String} {supertype : Supertype}
      {rest : List Supertype} {meetings : List Meeting}
      (hname : supertype.type.typeName? = none)
      (hrest : Walks resolver source interfacesOnly store seen rest final meetings) :
      Walks resolver source interfacesOnly store seen (supertype :: rest) final meetings
  | known {store final : Store} {seen : List String} {supertype : Supertype} {name : TypeName}
      {rest : List Supertype} {meetings : List Meeting}
      (hname : supertype.type.typeName? = some name) (hseen : name.fullName ∈ seen)
      (hrest : Walks resolver source interfacesOnly store seen rest final meetings) :
      Walks resolver source interfacesOnly store seen (supertype :: rest) final meetings
  | meets {store final : Store} {seen : List String} {supertype : Supertype} {name : TypeName}
      {rest : List Supertype} {meetings : List Meeting}
      (hname : supertype.type.typeName? = some name) (hnew : name.fullName ∉ seen)
      (hrest : Walks resolver source interfacesOnly
        (resolver.definition source store supertype.origin name).1 (name.fullName :: seen)
        (rest ++ (Meeting.ofLookup resolver source store supertype name).following interfacesOnly)
        final meetings) :
      Walks resolver source interfacesOnly store seen (supertype :: rest) final
        (Meeting.ofLookup resolver source store supertype name :: meetings)

variable {resolver : Resolver} {source : ArchiveSource} {interfacesOnly : Bool}
  {store final : Store} {seen : List String} {queue : List Supertype} {meetings : List Meeting}

/-- What is queued comes from modules that are open, also after a meeting. -/
theorem origins_meets (resolver : Resolver) (source : ArchiveSource) (interfacesOnly : Bool)
    (hstore : store.WellFormed) {supertype : Supertype} {rest : List Supertype}
    (hqueue : ∀ next ∈ supertype :: rest, next.origin ∈ store.modules) (name : TypeName) :
    ∀ next ∈ rest ++
        (Meeting.ofLookup resolver source store supertype name).following interfacesOnly,
      next.origin ∈ (resolver.definition source store supertype.origin name).1.modules := by
  intro next hnext
  rcases List.mem_append.mp hnext with hrest | hfollowing
  · have hopens := definition_opens resolver source hstore supertype.origin name
    exact hopens.growsTo.mem_modules (hqueue next (List.mem_cons_of_mem _ hrest))
  · rcases Meeting.following_cases interfacesOnly
      (Meeting.ofLookup resolver source store supertype name) with hnothing | hfound
    · rw [hnothing] at hfollowing
      cases hfollowing
    · rcases hfound with ⟨found, hdefinition, hsupertypes⟩
      rw [hsupertypes] at hfollowing
      exact PlacedType.origin_of_mem_supertypes (definition_found resolver source hstore
        (hqueue supertype List.mem_cons_self) name hdefinition).1 next hfollowing

/-- What is looked up takes its supertypes out of the count of those to come. -/
theorem pendingCount_meets (resolver : Resolver) (source : ArchiveSource) (interfacesOnly : Bool)
    (hstore : store.WellFormed) {supertype : Supertype}
    (horigin : supertype.origin ∈ store.modules) {name : TypeName} (hnew : name.fullName ∉ seen) :
    (resolver.definition source store supertype.origin name).1.pendingCount
        (name.fullName :: seen) +
      ((Meeting.ofLookup resolver source store supertype name).following interfacesOnly).length ≤
    (resolver.definition source store supertype.origin name).1.pendingCount seen := by
  rcases Meeting.following_cases interfacesOnly
    (Meeting.ofLookup resolver source store supertype name) with hnothing | hfound
  · rw [hnothing, List.length_nil, Nat.add_zero]
    refine sum_map_filter_le _ _ _ (fun type htype => ?_) _
    simp only [List.contains_cons, Bool.not_or, Bool.and_eq_true] at htype
    exact htype.2
  · rcases hfound with ⟨found, hdefinition, hfollowing⟩
    rcases definition_found resolver source hstore horigin name hdefinition with ⟨hplace, hfind⟩
    rw [hfollowing]
    exact Store.pendingCount_cons (PlacedModule.defines_of_findType? hplace hfind)
      (PlacedModule.findType?_eq_some hfind).2 hnew

theorem Opens.closedFiles_lt
    (hcanonical : resolver.autoLoad = true → source.normalize = source.files.normalize)
    {after : Store} (h : resolver.Opens source store after)
    (hlength : after.archives.length ≠ store.archives.length) :
    resolver.autoLoad = true ∧ source.closedFiles after < source.closedFiles store := by
  have hgrows := h.growsTo
  cases h with
  | nothing => exact absurd rfl hlength
  | archive path parent contents hopen hfile hnew hload =>
      refine ⟨hopen, ArchiveSource.closedFiles_lt (hcanonical hopen) hgrows hfile hnew ?_⟩
      simp [Store.paths, LoadedArchive.withHandle, LoadedArchive.unopened]

/-- The store and the nodes are what a walk to the end of the queue comes to. -/
def Completes (resolver : Resolver) (source : ArchiveSource) (interfacesOnly : Bool)
    (store : Store) (seen : List String) (queue : List Supertype) (final : Store)
    (nodes : List Node) : Prop :=
  ∃ meetings, Walks resolver source interfacesOnly store seen queue final meetings ∧
    nodes = meetings.filterMap (Meeting.node interfacesOnly)

theorem Completes.meets {supertype : Supertype} {name : TypeName} {rest : List Supertype}
    {nodes : List Node} (hname : supertype.type.typeName? = some name)
    (hnew : name.fullName ∉ seen)
    (hrest : Completes resolver source interfacesOnly
      (resolver.definition source store supertype.origin name).1 (name.fullName :: seen)
      (rest ++ (Meeting.ofLookup resolver source store supertype name).following interfacesOnly)
      final nodes) :
    Completes resolver source interfacesOnly store seen (supertype :: rest) final
      (((Meeting.ofLookup resolver source store supertype name).node interfacesOnly).toList
        ++ nodes) := by
  rcases hrest with ⟨meetings, hwalks, hnodes⟩
  refine ⟨_, .meets hname hnew hwalks, ?_⟩
  rw [hnodes, List.filterMap_cons]
  cases (Meeting.ofLookup resolver source store supertype name).node interfacesOnly <;> rfl

/-- Enough steps take the walk to its end: it opens fewer archives than there are files, and meets
fewer names than there are definitions. -/
theorem walk_completes
    (hcanonical : resolver.autoLoad = true → source.normalize = source.files.normalize)
    (interfacesOnly : Bool) (loads steps : Nat) {store : Store} (seen : List String)
    {queue : List Supertype} (hstore : store.WellFormed)
    (hqueue : ∀ supertype ∈ queue, supertype.origin ∈ store.modules)
    (hloads : resolver.autoLoad = true → source.closedFiles store ≤ loads)
    (hsteps : store.pendingCount seen + queue.length ≤ steps) :
    Completes resolver source interfacesOnly store seen queue
      (walk resolver source interfacesOnly loads steps store seen queue).1
      (walk resolver source interfacesOnly loads steps store seen queue).2 := by
  cases queue with
  | nil => cases steps <;> rw [walk] <;> exact ⟨[], .done store seen, rfl⟩
  | cons supertype rest =>
      have hrest : ∀ next ∈ rest, next.origin ∈ store.modules :=
        (List.forall_mem_cons.mp hqueue).2
      rw [List.length_cons] at hsteps
      cases steps with
      | zero => omega
      | succ steps =>
          rw [walk]
          cases hname : supertype.type.typeName? with
          | none =>
              rcases walk_completes hcanonical interfacesOnly loads steps seen hstore hrest hloads
                (by omega) with ⟨meetings, hwalks, hnodes⟩
              exact ⟨meetings, .nameless hname hwalks, hnodes⟩
          | some name =>
              dsimp only
              split
              case isTrue hseen =>
                rcases walk_completes hcanonical interfacesOnly loads steps seen hstore hrest hloads
                  (by omega) with ⟨meetings, hwalks, hnodes⟩
                exact ⟨meetings, .known hname (List.contains_iff_mem.mp hseen) hwalks, hnodes⟩
              case isFalse hseen =>
                have hnew : name.fullName ∉ seen := fun hmem =>
                  hseen (List.contains_iff_mem.mpr hmem)
                have hopens := definition_opens resolver source hstore supertype.origin name
                have hfound := hopens.wellFormed hstore
                have horigins := origins_meets resolver source interfacesOnly hstore hqueue name
                have hpending := pendingCount_meets resolver source interfacesOnly hstore
                  (hqueue supertype List.mem_cons_self) hnew
                refine Completes.meets hname hnew ?_
                split
                case isTrue hlength =>
                  have hsame := hopens.eq_of_length hlength
                  rw [hsame] at hpending
                  exact walk_completes hcanonical interfacesOnly loads steps _ hfound horigins
                    (by rw [hsame]; exact hloads) (by rw [hsame, List.length_append]; omega)
                case isFalse hlength =>
                  rcases hopens.closedFiles_lt hcanonical hlength with ⟨hopen, hclosed⟩
                  have hcount := Store.pendingCount_le
                    (resolver.definition source store supertype.origin name).1
                    (name.fullName :: seen)
                  cases loads with
                  | zero =>
                      have := hloads hopen
                      omega
                  | succ loads =>
                      exact walk_completes hcanonical interfacesOnly loads _ _ hfound horigins
                        (fun _ => by have := hloads hopen; omega) (Nat.add_le_add_right hcount _)
termination_by (loads, steps)

/-- Base types are what a walk from the supertypes of the subject shows, with the subject seen. -/
theorem baseTypes_walks (resolver : Resolver) (source : ArchiveSource)
    (hcanonical : resolver.autoLoad = true → source.normalize = source.files.normalize)
    (hstore : store.WellFormed) {subject : PlacedType} (hplace : subject.place ∈ store.modules) :
    ∃ meetings,
      Walks resolver source subject.isInterface store [subject.fullName] subject.supertypes
        (resolver.baseTypes source store subject).1 meetings ∧
      (resolver.baseTypes source store subject).2 =
        Node.sortByName (meetings.filterMap (Meeting.node subject.isInterface)) := by
  rcases walk_completes hcanonical subject.isInterface source.fileCount
    (store.supertypeCount + subject.supertypes.length) [subject.fullName] hstore
    (PlacedType.origin_of_mem_supertypes hplace) (fun _ => source.closedFiles_le store)
    (Nat.add_le_add_right (store.pendingCount_le _) _) with ⟨meetings, hwalks, hnodes⟩
  exact ⟨meetings, hwalks, congrArg Node.sortByName hnodes⟩

/-- The walk from a queue, if it comes to its end in so many steps. -/
def walkWithin (resolver : Resolver) (source : ArchiveSource) (interfacesOnly : Bool) :
    (fuel : Nat) → Store → (seen : List String) → List Supertype → Option (Store × List Meeting)
  | _, store, _, [] => some (store, [])
  | 0, _, _, _ :: _ => none
  | fuel + 1, store, seen, supertype :: rest =>
      match supertype.type.typeName? with
      | none => walkWithin resolver source interfacesOnly fuel store seen rest
      | some name =>
          if seen.contains name.fullName then
            walkWithin resolver source interfacesOnly fuel store seen rest
          else
            let meeting := Meeting.ofLookup resolver source store supertype name
            (walkWithin resolver source interfacesOnly fuel
              (resolver.definition source store supertype.origin name).1 (name.fullName :: seen)
              (rest ++ meeting.following interfacesOnly)).map
                fun (final, meetings) => (final, meeting :: meetings)

theorem walks_of_walkWithin {fuel : Nat}
    (h : walkWithin resolver source interfacesOnly fuel store seen queue =
      some (final, meetings)) :
    Walks resolver source interfacesOnly store seen queue final meetings := by
  induction fuel generalizing store seen queue meetings with
  | zero =>
      cases queue with
      | nil =>
          cases h
          exact .done _ _
      | cons supertype rest => cases h
  | succ fuel ih =>
      cases queue with
      | nil =>
          cases h
          exact .done _ _
      | cons supertype rest =>
          rw [walkWithin] at h
          cases hname : supertype.type.typeName? with
          | none =>
              rw [hname] at h
              exact .nameless hname (ih h)
          | some name =>
              rw [hname] at h
              dsimp only at h
              split at h
              case isTrue hseen => exact .known hname (List.contains_iff_mem.mp hseen) (ih h)
              case isFalse hseen =>
                rcases Option.map_eq_some_iff.mp h with ⟨⟨after, later⟩, hlater, hpair⟩
                cases hpair
                exact .meets hname (fun hmem => hseen (List.contains_iff_mem.mpr hmem)) (ih hlater)

/-!
## What a walk meets
-/

namespace Walks

section First

variable {supertype : Supertype} {name : TypeName} {rest : List Supertype}
  (h : Walks resolver source interfacesOnly store seen (supertype :: rest) final meetings)

include h

theorem of_nameless (hname : supertype.type.typeName? = none) :
    Walks resolver source interfacesOnly store seen rest final meetings := by
  cases h with
  | nameless _ hrest => exact hrest
  | known hname' => simp [hname] at hname'
  | meets hname' => simp [hname] at hname'

theorem of_known (hname : supertype.type.typeName? = some name) (hseen : name.fullName ∈ seen) :
    Walks resolver source interfacesOnly store seen rest final meetings := by
  cases h with
  | nameless hname' => simp [hname] at hname'
  | known _ _ hrest => exact hrest
  | meets hname' hnew =>
      rw [hname] at hname'
      cases hname'
      exact absurd hseen hnew

theorem of_new (hname : supertype.type.typeName? = some name) (hnew : name.fullName ∉ seen) :
    ∃ later, meetings = Meeting.ofLookup resolver source store supertype name :: later ∧
      Walks resolver source interfacesOnly
        (resolver.definition source store supertype.origin name).1 (name.fullName :: seen)
        (rest ++ (Meeting.ofLookup resolver source store supertype name).following interfacesOnly)
        final later := by
  cases h with
  | nameless hname' => simp [hname] at hname'
  | known hname' hseen =>
      rw [hname] at hname'
      cases hname'
      exact absurd hseen hnew
  | meets hname' _ hrest =>
      rw [hname] at hname'
      cases hname'
      exact ⟨_, rfl, hrest⟩

end First

theorem functional {other : Store} {others : List Meeting}
    (h : Walks resolver source interfacesOnly store seen queue final meetings)
    (hother : Walks resolver source interfacesOnly store seen queue other others) :
    other = final ∧ others = meetings := by
  induction h generalizing others with
  | done => cases hother; exact ⟨rfl, rfl⟩
  | nameless hname _ ih => exact ih (hother.of_nameless hname)
  | known hname hseen _ ih => exact ih (hother.of_known hname hseen)
  | meets hname hnew _ ih =>
      rcases hother.of_new hname hnew with ⟨later, rfl, hlater⟩
      rcases ih hlater with ⟨rfl, rfl⟩
      exact ⟨rfl, rfl⟩

theorem typeName?_eq (h : Walks resolver source interfacesOnly store seen queue final meetings) :
    ∀ meeting ∈ meetings, meeting.supertype.type.typeName? = some meeting.name := by
  induction h with
  | done => intro meeting hmeeting; cases hmeeting
  | nameless _ _ ih => exact ih
  | known _ _ _ ih => exact ih
  | meets hname _ _ ih => exact List.forall_mem_cons.mpr ⟨hname, ih⟩

/-- Names are met once, and not if they have been seen before. -/
theorem names_nodup (h : Walks resolver source interfacesOnly store seen queue final meetings) :
    (meetings.map (·.name.fullName)).Nodup ∧
      ∀ meeting ∈ meetings, meeting.name.fullName ∉ seen := by
  induction h with
  | done => exact ⟨List.nodup_nil, fun meeting hmeeting => by cases hmeeting⟩
  | nameless _ _ ih => exact ih
  | known _ _ _ ih => exact ih
  | meets _ hnew _ ih =>
      rcases ih with ⟨hnodup, hunseen⟩
      constructor
      · refine List.nodup_cons.mpr ⟨fun hmem => ?_, hnodup⟩
        rcases List.mem_map.mp hmem with ⟨meeting, hmeeting, hname⟩
        refine hunseen meeting hmeeting ?_
        rw [hname]
        exact List.mem_cons_self
      · refine List.forall_mem_cons.mpr ⟨hnew, fun meeting hmeeting hseen => ?_⟩
        exact hunseen meeting hmeeting (List.mem_cons_of_mem _ hseen)

theorem eq_of_name_eq (h : Walks resolver source interfacesOnly store seen queue final meetings)
    {meeting other : Meeting} (hmeeting : meeting ∈ meetings) (hother : other ∈ meetings)
    (hname : meeting.name.fullName = other.name.fullName) : meeting = other :=
  List.inj_on_of_nodup_map h.names_nodup.1 hmeeting hother hname

theorem grows (h : Walks resolver source interfacesOnly store seen queue final meetings)
    (hstore : store.WellFormed) : store.GrowsTo final ∧ final.WellFormed := by
  induction h with
  | done store => exact ⟨.refl store, hstore⟩
  | nameless _ _ ih => exact ih hstore
  | known _ _ _ ih => exact ih hstore
  | @meets _ _ _ supertype name _ _ _ _ _ ih =>
      have hopens := definition_opens resolver source hstore supertype.origin name
      rcases ih (hopens.wellFormed hstore) with ⟨hgrows, hfinal⟩
      exact ⟨hopens.growsTo.trans hgrows, hfinal⟩

theorem new_paths (h : Walks resolver source interfacesOnly store seen queue final meetings)
    (hstore : store.WellFormed)
    (hcanonical : ∀ path, source.normalize (source.normalize path) = source.normalize path) :
    ∀ path ∈ final.paths, path ∈ store.paths ∨ source.normalize path = path := by
  induction h with
  | done => exact fun path hpath => .inl hpath
  | nameless _ _ ih => exact ih hstore
  | known _ _ _ ih => exact ih hstore
  | @meets store _ _ supertype name _ _ _ _ _ ih =>
      have hopens := definition_opens resolver source hstore supertype.origin name
      intro path hpath
      rcases ih (hopens.wellFormed hstore) path hpath with hopened | hpath
      · exact hopens.new_paths hcanonical path hopened
      · exact .inr hpath

theorem found (h : Walks resolver source interfacesOnly store seen queue final meetings)
    (hstore : store.WellFormed) (hqueue : ∀ next ∈ queue, next.origin ∈ store.modules) :
    ∀ meeting ∈ meetings, meeting.FoundIn final := by
  induction h with
  | done => intro meeting hmeeting; cases hmeeting
  | nameless _ _ ih => exact ih hstore (List.forall_mem_cons.mp hqueue).2
  | known _ _ _ ih => exact ih hstore (List.forall_mem_cons.mp hqueue).2
  | @meets _ _ _ supertype name _ _ _ _ hrest ih =>
      have hopened :=
        (definition_opens resolver source hstore supertype.origin name).wellFormed hstore
      refine List.forall_mem_cons.mpr ⟨fun found hdefinition => ?_,
        ih hopened (origins_meets resolver source interfacesOnly hstore hqueue _)⟩
      rcases definition_found resolver source hstore (hqueue _ List.mem_cons_self) _ hdefinition
        with ⟨hplace, hfind⟩
      exact ⟨(hrest.grows hopened).1.mem_modules hplace, hfind⟩

/-- Each name in the queue has been seen or is met, and so are the names that follow a meeting. -/
theorem covers (h : Walks resolver source interfacesOnly store seen queue final meetings) :
    ∀ supertype name, supertype.type.typeName? = some name →
      (supertype ∈ queue ∨
        ∃ meeting ∈ meetings, supertype ∈ meeting.following interfacesOnly) →
      name.fullName ∈ seen ∨ ∃ meeting ∈ meetings, meeting.name.fullName = name.fullName := by
  induction h with
  | done =>
      intro supertype name _ hplace
      simp at hplace
  | nameless hnone _ ih =>
      intro supertype name hname hplace
      refine ih supertype name hname (hplace.imp_left fun hqueue => ?_)
      rcases List.mem_cons.mp hqueue with rfl | hrest
      · simp [hnone] at hname
      · exact hrest
  | known hknown hseen _ ih =>
      intro supertype name hname hplace
      rcases hplace with hqueue | hfollowing
      · rcases List.mem_cons.mp hqueue with rfl | hrest
        · rw [hknown] at hname
          cases hname
          exact .inl hseen
        · exact ih supertype name hname (.inl hrest)
      · exact ih supertype name hname (.inr hfollowing)
  | @meets store _ _ met metName rest meetings hmet _ _ ih =>
      intro supertype name hname hplace
      have hsplit : supertype = met ∨
          supertype ∈ rest ++
            (Meeting.ofLookup resolver source store met metName).following interfacesOnly ∨
          ∃ meeting ∈ meetings, supertype ∈ meeting.following interfacesOnly := by
        rcases hplace with hqueue | ⟨meeting, hmeeting, hfollowing⟩
        · exact (List.mem_cons.mp hqueue).imp_right fun hrest =>
            .inl (List.mem_append_left _ hrest)
        · right
          rcases List.mem_cons.mp hmeeting with rfl | hlater
          · exact .inl (List.mem_append_right _ hfollowing)
          · exact .inr ⟨meeting, hlater, hfollowing⟩
      rcases hsplit with rfl | hlater
      · rw [hmet] at hname
        cases hname
        exact .inr ⟨_, List.mem_cons_self, rfl⟩
      · rcases ih supertype name hname hlater with hseen | ⟨meeting, hmeeting, hsame⟩
        · rcases List.mem_cons.mp hseen with hsame | hseen
          · exact .inr ⟨_, List.mem_cons_self, hsame.symm⟩
          · exact .inl hseen
        · exact .inr ⟨meeting, List.mem_cons_of_mem _ hmeeting, hsame⟩

/-- What holds of the supertypes in the queue, and goes on from each meeting to those that follow
it, holds of all that is met. -/
theorem forall_meetings {holds : Supertype → Prop}
    (h : Walks resolver source interfacesOnly store seen queue final meetings)
    (hqueue : ∀ next ∈ queue, holds next)
    (hfollowing : ∀ meeting ∈ meetings, holds meeting.supertype →
      ∀ next ∈ meeting.following interfacesOnly, holds next) :
    ∀ meeting ∈ meetings, holds meeting.supertype := by
  induction h with
  | done => intro meeting hmeeting; cases hmeeting
  | nameless _ _ ih => exact ih (List.forall_mem_cons.mp hqueue).2 hfollowing
  | known _ _ _ ih => exact ih (List.forall_mem_cons.mp hqueue).2 hfollowing
  | meets _ _ _ ih =>
      have hhere := hqueue _ List.mem_cons_self
      refine List.forall_mem_cons.mpr ⟨hhere, ih ?_ fun meeting hmeeting =>
        hfollowing meeting (List.mem_cons_of_mem _ hmeeting)⟩
      refine List.forall_mem_append.mpr ⟨(List.forall_mem_cons.mp hqueue).2, ?_⟩
      exact hfollowing _ List.mem_cons_self hhere

/-- What is met comes from modules that are open in the end. -/
theorem origins (h : Walks resolver source interfacesOnly store seen queue final meetings)
    (hstore : store.WellFormed) (hqueue : ∀ next ∈ queue, next.origin ∈ store.modules) :
    ∀ meeting ∈ meetings, meeting.supertype.origin ∈ final.modules := by
  refine h.forall_meetings (fun next hnext => (h.grows hstore).1.mem_modules (hqueue next hnext)) ?_
  intro meeting hmeeting _ next hnext
  rcases Meeting.following_cases interfacesOnly meeting with hnothing | hfound
  · rw [hnothing] at hnext
    cases hnext
  · rcases hfound with ⟨found, hdefinition, hsupertypes⟩
    rw [hsupertypes] at hnext
    exact PlacedType.origin_of_mem_supertypes
      (h.found hstore hqueue meeting hmeeting found hdefinition).1 next hnext

theorem closed (h : Walks resolver source interfacesOnly store seen queue final meetings)
    (hclosed : resolver.autoLoad = false) (hstore : store.WellFormed) :
    final = store ∧
      ∀ meeting ∈ meetings,
        meeting = Meeting.ofLookup resolver source store meeting.supertype meeting.name := by
  induction h with
  | done => exact ⟨rfl, fun meeting hmeeting => by cases hmeeting⟩
  | nameless _ _ ih => exact ih hstore
  | known _ _ _ ih => exact ih hstore
  | @meets store _ _ supertype name _ _ _ _ _ ih =>
      have hsame : (resolver.definition source store supertype.origin name).1 = store :=
        (definition_opens resolver source hstore supertype.origin name).eq_of_closed hclosed
      rw [hsame] at ih
      rcases ih hstore with ⟨hfinal, hmeetings⟩
      exact ⟨hfinal, List.forall_mem_cons.mpr ⟨rfl, hmeetings⟩⟩

end Walks

end Resolver
end AssemblyBrowser
