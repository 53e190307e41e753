import Mathlib.Logic.Relation
import AssemblyBrowser.Proofs.Browsing.Nodes
import AssemblyBrowser.Proofs.Hierarchy.Walks

/-!
# Base types are supertypes

The full names of types form a graph: each definition leads from its name to the
names of its base and its interfaces. Without leave to open archives, the base
types of a type are the names that this graph leads to, each once.
-/

namespace AssemblyBrowser

/-!
## The graph of supertypes
-/

namespace PlacedType

/-- The names by which a definition refers to its supertypes. -/
def supertypeNames (type : PlacedType) : List TypeName :=
  type.supertypes.filterMap (·.type.typeName?)

theorem mem_supertypeNames {type : PlacedType} {next : Supertype} {name : TypeName}
    (hnext : next ∈ type.supertypes) (hname : next.type.typeName? = some name) :
    name ∈ type.supertypeNames :=
  List.mem_filterMap.mpr ⟨next, hnext, hname⟩

theorem mem_directSupertypes {type : PlacedType} {fullName : String} :
    fullName ∈ type.definition.directSupertypes ↔
      ∃ next ∈ type.supertypes, ∃ name, next.type.typeName? = some name ∧
        name.fullName = fullName := by
  have htypes : type.supertypes.map Supertype.type =
      type.definition.base.toList ++ type.definition.interfaces := by
    simp [supertypes, Supertype.ofType, Function.comp_def]
  unfold TypeDefinition.directSupertypes
  rw [← htypes, List.filterMap_map, List.mem_filterMap]
  simp only [Function.comp_apply, Option.map_eq_some_iff]

theorem isInterface_of_mem_supertypes {type : PlacedType} (hbase : type.definition.base = none) :
    ∀ next ∈ type.supertypes, next.isInterface = true := by
  intro next hnext
  unfold supertypes Supertype.ofType at hnext
  rw [hbase] at hnext
  rcases List.mem_map.mp hnext with ⟨interface, _, rfl⟩
  rfl

end PlacedType

/-- The full name of the root of the class hierarchy. -/
def rootName : String := "System.Object"

namespace TypeName

theorem fullName_of_isObject {name : TypeName} (h : name.isObject = true) :
    name.fullName = rootName := by
  rw [isObject, Bool.and_eq_true, beq_iff_eq, beq_iff_eq] at h
  rw [fullName, h.1, h.2]
  rfl

/-- Without a dot in the last part of a name, its full name tells whether it is the root. -/
theorem isObject_of_fullName {name : TypeName} (hdot : '.' ∉ name.name.toList)
    (h : name.fullName = rootName) : name.isObject = true := by
  have hchars : name.fullName.toList = "System".toList ++ '.' :: "Object".toList := by
    rw [h]
    rfl
  unfold fullName at hchars
  split at hchars
  case isTrue => simp [hchars] at hdot
  case isFalse =>
    -- The name of the root has one dot only.
    rw [String.toList_append, String.toList_append, List.append_assoc] at hchars
    rcases (List.append_cons_inj_of_notMem (by decide) (by decide)).mp hchars.symm with
      ⟨hnamespace, _, hname⟩
    rw [isObject, Bool.and_eq_true, beq_iff_eq, beq_iff_eq]
    exact ⟨(String.toList_inj.mp hnamespace).symm, (String.toList_inj.mp hname).symm⟩

end TypeName

namespace Store

/-- No name that a definition gives to a supertype is defined twice or has a dot in its last part,
and no interface has a base. -/
structure PlainHierarchy (store : Store) : Prop where
  unique : ∀ type, store.Defines type → ∀ fullName ∈ type.definition.directSupertypes,
    ∀ first second, store.Defines first → store.Defines second → first.fullName = fullName →
      second.fullName = fullName → first = second
  noDot : ∀ type, store.Defines type → ∀ name ∈ type.supertypeNames, '.' ∉ name.name.toList
  noBase : ∀ type, store.Defines type → type.isInterface = true → type.definition.base = none

/-- A definition leads from its name to the names of its supertypes, unless it is the root; where
only interfaces count, it has to be one. -/
def Leads (store : Store) (interfacesOnly : Bool) (fullName next : String) : Prop :=
  fullName ≠ rootName ∧
    ∃ found, store.Defines found ∧ found.fullName = fullName ∧
      (interfacesOnly = true → found.isInterface = true) ∧
      next ∈ found.definition.directSupertypes

/-- A name is reached from a subject if definitions lead to it from a direct supertype. -/
def Reaches (store : Store) (subject : PlacedType) (fullName : String) : Prop :=
  ∃ first ∈ subject.definition.directSupertypes,
    Relation.ReflTransGen (store.Leads subject.isInterface) first fullName

/-- A name is shown as the type that it is defined to be, or as a supertype that goes by it and
could not be resolved. -/
inductive Shows (store : Store) (fullName : String) : Node → Prop where
  | resolved (found : PlacedType) (hfound : store.Defines found)
      (hname : found.fullName = fullName) : Shows store fullName found.node
  | unresolved (type : PlacedType) (htype : store.Defines type) (next : Supertype)
      (hnext : next ∈ type.supertypes) (name : TypeName)
      (hname : next.type.typeName? = some name) (hfullName : name.fullName = fullName)
      (hnone : ∀ found, store.Defines found → found.fullName ≠ fullName) :
      Shows store fullName (next.unresolvedNode name)

/-- A supertype belongs to the walk from a subject if a definition in the walk names it, and the
graph leads to its name. -/
structure Belongs (store : Store) (subject : PlacedType) (next : Supertype) : Prop where
  named : ∃ type, store.Defines type ∧ (subject.isInterface = true → type.isInterface = true) ∧
    next ∈ type.supertypes
  reached : ∀ name, next.type.typeName? = some name → store.Reaches subject name.fullName

/-- A name is listed for a subject if it is another one that the graph leads to. For an interface
it must not be defined to be anything else. -/
structure Lists (store : Store) (subject : PlacedType) (fullName : String) : Prop where
  other : fullName ≠ subject.fullName
  reached : store.Reaches subject fullName
  kind : subject.isInterface = true →
    ∀ found, store.Defines found → found.fullName = fullName → found.isInterface = true

variable {store : Store} {subject : PlacedType}

theorem belongs_of_subject (hsubject : store.Defines subject) :
    ∀ next ∈ subject.supertypes, store.Belongs subject next := by
  intro next hnext
  refine ⟨⟨subject, hsubject, id, hnext⟩, fun name hname => ⟨name.fullName, ?_, .refl⟩⟩
  exact PlacedType.mem_directSupertypes.mpr ⟨next, hnext, name, hname, rfl⟩

theorem Belongs.noDot (hplain : store.PlainHierarchy) {next : Supertype}
    (h : store.Belongs subject next) {name : TypeName} (hname : next.type.typeName? = some name) :
    '.' ∉ name.name.toList := by
  rcases h.named with ⟨type, htype, _, hnext⟩
  exact hplain.noDot type htype name (PlacedType.mem_supertypeNames hnext hname)

theorem Belongs.isInterface (hplain : store.PlainHierarchy) {next : Supertype}
    (h : store.Belongs subject next) (honly : subject.isInterface = true) :
    next.isInterface = true := by
  rcases h.named with ⟨type, htype, hkind, hnext⟩
  exact PlacedType.isInterface_of_mem_supertypes (hplain.noBase type htype (hkind honly)) next hnext

/-- What follows a definition that the walk comes to belongs to it. -/
theorem belongs_of_leads {fullName : String} (hreached : store.Reaches subject fullName)
    (hroot : fullName ≠ rootName) {found : PlacedType} (hfound : store.Defines found)
    (hname : found.fullName = fullName)
    (hkind : subject.isInterface = true → found.isInterface = true) :
    ∀ next ∈ found.supertypes, store.Belongs subject next := by
  intro next hnext
  refine ⟨⟨found, hfound, hkind, hnext⟩, fun name hnextName => ?_⟩
  rcases hreached with ⟨first, hfirst, hpath⟩
  refine ⟨first, hfirst, hpath.tail ⟨hroot, found, hfound, hname, hkind, ?_⟩⟩
  exact PlacedType.mem_directSupertypes.mpr ⟨next, hnext, name, hnextName, rfl⟩

theorem Reaches.named (hsubject : store.Defines subject) {fullName : String}
    (h : store.Reaches subject fullName) :
    ∃ type, store.Defines type ∧ fullName ∈ type.definition.directSupertypes := by
  rcases h with ⟨first, hfirst, hpath⟩
  cases hpath with
  | refl => exact ⟨subject, hsubject, hfirst⟩
  | tail _ hlast =>
      rcases hlast with ⟨_, found, hfound, _, _, hnext⟩
      exact ⟨found, hfound, hnext⟩

end Store

/-!
## Walks in a store that stays as it is
-/

namespace Resolver.Walks

variable {resolver : Resolver} {source : ArchiveSource} {store final : Store}
  {subject : PlacedType} {meetings : List Meeting}

section Closed

variable (hclosed : resolver.autoLoad = false) (hstore : store.WellFormed)
  (hplain : store.PlainHierarchy) (hsubject : store.Defines subject)
  (h : Walks resolver source subject.isInterface store [subject.fullName] subject.supertypes final
    meetings)

include hclosed hstore hsubject h

/-- What is met is looked up among the types of the store, and found if it is one of them. -/
theorem lookup_closed :
    ∀ meeting ∈ meetings, meeting.FoundIn store ∧
      (meeting.definition = none →
        ∀ found, store.Defines found → found.fullName ≠ meeting.name.fullName) := by
  have hqueue := PlacedType.origin_of_mem_supertypes hsubject.1
  rcases h.closed hclosed hstore with ⟨rfl, hlookups⟩
  intro meeting hmeeting
  refine ⟨h.found hstore hqueue meeting hmeeting, fun hnone found hfound hname => ?_⟩
  rw [hlookups meeting hmeeting] at hnone
  have hnowhere := findType?_of_definition_eq_none hstore
    (h.origins hstore hqueue meeting hmeeting) meeting.name hnone
  rw [(definition_opens resolver source hstore _ _).eq_of_closed hclosed, ← hname] at hnowhere
  exact PlacedModule.findType?_ne_none hfound.2
    (findType?_eq_none_iff.mp hnowhere found.place hfound.1)

include hplain

/-- The walk meets names that the graph leads to. -/
theorem belongs_of_mem : ∀ meeting ∈ meetings, store.Belongs subject meeting.supertype := by
  refine h.forall_meetings (Store.belongs_of_subject hsubject) ?_
  intro meeting hmeeting hbelongs next hnext
  have hfound := (h.lookup_closed hclosed hstore hsubject meeting hmeeting).1
  have hname := h.typeName?_eq meeting hmeeting
  cases meeting.appears subject.isInterface with
  | resolved found hdefinition hkind hnode hfollowing =>
      cases hobject : meeting.name.isObject with
      | true =>
          rw [hfollowing, hobject] at hnext
          cases hnext
      | false =>
          rw [hfollowing, hobject] at hnext
          refine Store.belongs_of_leads (hbelongs.reached _ hname) (fun hroot => ?_)
            (hfound.defines hdefinition) (hfound.fullName hdefinition) hkind next hnext
          rw [TypeName.isObject_of_fullName (hbelongs.noDot hplain hname) hroot] at hobject
          cases hobject
  | filtered found hdefinition honly hkind hnode hfollowing =>
      rw [hfollowing] at hnext
      cases hnext
  | unresolved hdefinition hkind hnode hfollowing =>
      rw [hfollowing] at hnext
      cases hnext
  | ignored hdefinition honly hkind hnode hfollowing =>
      rw [hfollowing] at hnext
      cases hnext

theorem following_eq {meeting : Meeting} (hmeeting : meeting ∈ meetings) {found : PlacedType}
    (hfound : store.Defines found) (hname : found.fullName = meeting.name.fullName)
    (hroot : meeting.name.fullName ≠ rootName)
    (hkind : subject.isInterface = true → found.isInterface = true) :
    meeting.following subject.isInterface = found.supertypes := by
  rcases h.lookup_closed hclosed hstore hsubject meeting hmeeting with ⟨hfoundIn, hnone⟩
  have hbelongs := h.belongs_of_mem hclosed hstore hplain hsubject meeting hmeeting
  rcases (hbelongs.reached _ (h.typeName?_eq meeting hmeeting)).named hsubject with
    ⟨type, htype, hmentioned⟩
  have hsame {other : PlacedType} (hother : meeting.definition = some other) : other = found :=
    hplain.unique type htype _ hmentioned other found (hfoundIn.defines hother) hfound
      (hfoundIn.fullName hother) hname
  cases meeting.appears subject.isInterface with
  | resolved other hdefinition hkind' hnode hfollowing =>
      have hobject : meeting.name.isObject = false := by
        rw [Bool.eq_false_iff]
        exact fun hobject => hroot (TypeName.fullName_of_isObject hobject)
      rw [hfollowing, hobject, hsame hdefinition]
      rfl
  | filtered other hdefinition honly hother hnode hfollowing =>
      rw [hsame hdefinition, hkind honly] at hother
      cases hother
  | unresolved hdefinition hkind' hnode hfollowing =>
      exact absurd hname (hnone hdefinition found hfound)
  | ignored hdefinition honly hkind' hnode hfollowing =>
      exact absurd hname (hnone hdefinition found hfound)

/-- The walk meets every name that the graph leads to, but the one that it starts from. -/
theorem exists_meeting {fullName : String} (hreached : store.Reaches subject fullName)
    (hother : fullName ≠ subject.fullName) :
    ∃ meeting ∈ meetings, meeting.name.fullName = fullName := by
  have hcovers {type : PlacedType} {next : String}
      (hqueued : ∀ supertype ∈ type.supertypes, supertype ∈ subject.supertypes ∨
        ∃ meeting ∈ meetings, supertype ∈ meeting.following subject.isInterface)
      (hnext : next ∈ type.definition.directSupertypes) :
      next = subject.fullName ∨ ∃ meeting ∈ meetings, meeting.name.fullName = next := by
    rcases PlacedType.mem_directSupertypes.mp hnext with ⟨supertype, hmem, name, hname, rfl⟩
    rcases h.covers supertype name hname (hqueued supertype hmem) with hseen | hmet
    · exact .inl (List.mem_singleton.mp hseen)
    · exact .inr hmet
  refine Or.resolve_left ?_ hother
  rcases hreached with ⟨first, hfirst, hpath⟩
  induction hpath with
  | refl => exact hcovers (fun supertype hmem => .inl hmem) hfirst
  | @tail middle next hpath hleads ih =>
      rcases hleads with ⟨hroot, found, hfound, hname, hkind, hnext⟩
      refine hcovers (fun supertype hmem => ?_) hnext
      by_cases hstart : middle = subject.fullName
      · have hmiddle : store.Reaches subject middle := ⟨first, hfirst, hpath⟩
        rcases hmiddle.named hsubject with ⟨type, htype, hmentioned⟩
        rw [hplain.unique type htype middle hmentioned found subject hfound hsubject hname
          hstart.symm] at hmem
        exact .inl hmem
      · rcases (ih hstart).resolve_left hstart with ⟨meeting, hmeeting, rfl⟩
        refine .inr ⟨meeting, hmeeting, ?_⟩
        rw [h.following_eq hclosed hstore hplain hsubject hmeeting hfound hname hroot hkind]
        exact hmem

/-- What is met is shown by its name, unless it is no interface where only they count. -/
theorem shows_of_mem {meeting : Meeting} (hmeeting : meeting ∈ meetings) :
    (∀ node, meeting.node subject.isInterface = some node →
        store.Shows meeting.name.fullName node) ∧
      ((meeting.node subject.isInterface).isSome = true ↔
        store.Lists subject meeting.name.fullName) := by
  rcases h.lookup_closed hclosed hstore hsubject meeting hmeeting with ⟨hfoundIn, hnone⟩
  have hbelongs := h.belongs_of_mem hclosed hstore hplain hsubject meeting hmeeting
  have hname := h.typeName?_eq meeting hmeeting
  have hother : meeting.name.fullName ≠ subject.fullName := fun heq =>
    h.names_nodup.2 meeting hmeeting (List.mem_singleton.mpr heq)
  have hreached := hbelongs.reached _ hname
  rcases hbelongs.named with ⟨type, htype, _, hnext⟩
  cases meeting.appears subject.isInterface with
  | resolved found hdefinition hkind hnode hfollowing =>
      have hdefines := hfoundIn.defines hdefinition
      have hfullName := hfoundIn.fullName hdefinition
      rw [hnode]
      constructor
      · intro node hsame
        rw [← Option.some.inj hsame]
        exact .resolved found hdefines hfullName
      · refine ⟨fun _ => ⟨hother, hreached, fun honly other hdefines' hfullName' => ?_⟩,
          fun _ => rfl⟩
        rcases hreached.named hsubject with ⟨type, htype, hmentioned⟩
        rw [hplain.unique type htype _ hmentioned other found hdefines' hdefines hfullName'
          hfullName]
        exact hkind honly
  | filtered found hdefinition honly hkind hnode hfollowing =>
      rw [hnode]
      constructor
      · intro node hsame
        cases hsame
      · refine ⟨fun hsome => (by cases hsome), fun hlists => ?_⟩
        have hinterface := hlists.kind honly found (hfoundIn.defines hdefinition)
          (hfoundIn.fullName hdefinition)
        rw [hkind] at hinterface
        cases hinterface
  | unresolved hdefinition hkind hnode hfollowing =>
      have hnowhere := hnone hdefinition
      rw [hnode]
      constructor
      · intro node hsame
        rw [← Option.some.inj hsame]
        exact .unresolved type htype meeting.supertype hnext meeting.name hname rfl hnowhere
      · refine ⟨fun _ => ⟨hother, hreached, fun _ found hfound hfullName => ?_⟩, fun _ => rfl⟩
        exact absurd hfullName (hnowhere found hfound)
  | ignored hdefinition honly hkind hnode hfollowing =>
      rw [hbelongs.isInterface hplain honly] at hkind
      cases hkind

/-- The walk shows the names that are listed, each once. -/
theorem exists_names :
    ∃ names : List String, names.Nodup ∧
      (∀ fullName, fullName ∈ names ↔ store.Lists subject fullName) ∧
      List.Forall₂ store.Shows names (meetings.filterMap (Meeting.node subject.isInterface)) := by
  have hshows {meeting : Meeting} (hmeeting : meeting ∈ meetings) :=
    h.shows_of_mem hclosed hstore hplain hsubject hmeeting
  refine ⟨(meetings.filter fun meeting => (meeting.node subject.isInterface).isSome).map
    (·.name.fullName), ?_, fun fullName => ?_, ?_⟩
  · exact (List.filter_sublist.map _).nodup h.names_nodup.1
  · constructor
    · intro hmem
      rcases List.mem_map.mp hmem with ⟨meeting, hmeeting, rfl⟩
      rcases List.mem_filter.mp hmeeting with ⟨hmeeting, hshown⟩
      exact (hshows hmeeting).2.mp hshown
    · intro hlists
      rcases h.exists_meeting hclosed hstore hplain hsubject hlists.reached hlists.other with
        ⟨meeting, hmeeting, rfl⟩
      exact List.mem_map.mpr ⟨meeting, List.mem_filter.mpr
        ⟨hmeeting, (hshows hmeeting).2.mpr hlists⟩, rfl⟩
  · have hpointwise := fun meeting hmeeting => (@hshows meeting hmeeting).1
    clear hshows h
    induction meetings with
    | nil => exact .nil
    | cons meeting rest ih =>
        have hrest := ih fun other hother => hpointwise other (List.mem_cons_of_mem _ hother)
        cases hnode : meeting.node subject.isInterface with
        | none =>
            rw [List.filter_cons_of_neg (by simp [hnode]), List.filterMap_cons_none hnode]
            exact hrest
        | some node =>
            rw [List.filter_cons_of_pos (by simp [hnode]), List.filterMap_cons_some hnode]
            exact .cons (hpointwise meeting List.mem_cons_self node hnode) hrest

end Closed
end Resolver.Walks

/-!
## Base types
-/

namespace Store

/-- Whether a store has a plain hierarchy in which no full name at all is defined twice. -/
def isPlain (store : Store) : Bool :=
  decide (store.definitions.map PlacedType.fullName).Nodup &&
    store.definitions.all fun type =>
      (type.supertypeNames.all fun name => !name.name.toList.contains '.') &&
        (!type.isInterface || type.definition.base.isNone)

theorem plainHierarchy_of_isPlain {store : Store} (h : store.isPlain = true) :
    store.PlainHierarchy := by
  unfold isPlain at h
  rw [Bool.and_eq_true, decide_eq_true_eq, List.all_eq_true] at h
  have htypes (type : PlacedType) (htype : store.Defines type) :
      (∀ name ∈ type.supertypeNames, '.' ∉ name.name.toList) ∧
        (type.isInterface = true → type.definition.base = none) := by
    have hchecks := h.2 type (mem_definitions.mpr htype)
    rw [Bool.and_eq_true, List.all_eq_true] at hchecks
    constructor
    · intro name hname
      simpa using hchecks.1 name hname
    · intro hinterface
      simpa [hinterface] using hchecks.2
  constructor
  · intro _ _ fullName _ first second hfirst hsecond hfirstName hsecondName
    exact List.inj_on_of_nodup_map h.1 (mem_definitions.mpr hfirst) (mem_definitions.mpr hsecond)
      (hfirstName.trans hsecondName.symm)
  · exact fun type htype => (htypes type htype).1
  · exact fun type htype => (htypes type htype).2

variable {store : Store} {resolver : Resolver} {source : ArchiveSource} {address : NodeAddress}
  {subject : PlacedType}

/-- The base types of a type come of a walk without bounds, which shows the names that are listed,
each once. -/
theorem children_baseTypes (hclosed : resolver.autoLoad = false) (hstore : store.WellFormed)
    (hplain : store.PlainHierarchy) (hkind : address.kind = .baseTypesGroup)
    (hsubject : store.subjectOf source address = .ok subject) :
    ∃ meetings names,
      resolver.Walks source subject.isInterface store [subject.fullName] subject.supertypes store
        meetings ∧
      names.Nodup ∧ (∀ fullName, fullName ∈ names ↔ store.Lists subject fullName) ∧
      List.Forall₂ store.Shows names
        (meetings.filterMap (Resolver.Meeting.node subject.isInterface)) ∧
      store.children resolver source address =
        (store, .ok (Node.sortByName
          (meetings.filterMap (Resolver.Meeting.node subject.isInterface)))) := by
  have hdefines := defines_of_subjectOf hsubject
  have hopen : resolver.autoLoad = true → source.normalize = source.files.normalize := by
    rw [hclosed]
    exact fun h => absurd h Bool.false_ne_true
  rcases Resolver.baseTypes_walks resolver source hopen hstore hdefines.1 with
    ⟨meetings, hwalks, hnodes⟩
  have hsame := (hwalks.closed hclosed hstore).1
  rcases hwalks.exists_names hclosed hstore hplain hdefines with ⟨names, hnodup, hlists, hshows⟩
  rw [hsame] at hwalks
  refine ⟨meetings, names, hwalks, hnodup, hlists, hshows, ?_⟩
  simp only [children, if_pos hkind, hsubject, hsame, hnodes]

end Store

namespace Worker

/-- After any commands, without leave to open archives and where names are plain, the base types of
a type are found by a walk that comes to its end, and they are the names that the graph of
supertypes leads to from the type, each once: the nodes of their definitions, or nodes that say that
there is none. -/
theorem base_types_are_supertypes (sessionFile : Option String) (before : FileSystem)
    (events : List WorkerEvent) (resolver : Resolver) (source : ArchiveSource)
    (hclosed : resolver.autoLoad = false)
    (hplain : ((start sessionFile before).run events).store.PlainHierarchy)
    (address : NodeAddress) (hkind : address.kind = .baseTypesGroup) (subject : PlacedType)
    (hsubject :
      ((start sessionFile before).run events).store.subjectOf source address = .ok subject) :
    let store := ((start sessionFile before).run events).store
    ∃ meetings names,
      resolver.Walks source subject.isInterface store [subject.fullName] subject.supertypes store
        meetings ∧
      names.Nodup ∧ (∀ fullName, fullName ∈ names ↔ store.Lists subject fullName) ∧
      List.Forall₂ store.Shows names
        (meetings.filterMap (Resolver.Meeting.node subject.isInterface)) ∧
      store.children resolver source address =
        (store, .ok (Node.sortByName
          (meetings.filterMap (Resolver.Meeting.node subject.isInterface)))) :=
  Store.children_baseTypes hclosed (wellFormed_run events Store.empty_wellFormed) hplain hkind
    hsubject

/-- A module is opened, whatever the path. -/
def openModule (code : CodeModule) : WorkerEvent where
  normalize := id
  loader := { ofFile := fun _ _ => .ok code, ofBytes := fun name _ => .error (.other name) }
  files := {}
  command := .add "/Module.dll" none

def afterOpening (code : CodeModule) : Store := ((start none {}).run [openModule code]).store

/-- The base types of the first type of that module. -/
def firstBaseTypes : NodeAddress :=
  .group "/Module.dll" none .baseTypesGroup (TableId.typeDef.token 1)

/-- Two classes that are the base of each other, of which one has an interface that is nowhere. -/
def circularClasses : CodeModule where
  name := "Loop.dll"
  runtimeVersion := ""
  types := #[
    { token := TableId.typeDef.token 1
      namespaceName := "Loop"
      name := "First"
      flags := 0
      base := some (.ofName "Loop" "Second")
      interfaces :=
        [.named { namespaceName := "Lib", name := "IShape", scope := some "Lib" }] },
    { token := TableId.typeDef.token 2
      namespaceName := "Loop"
      name := "Second"
      flags := 0
      base := some (.ofName "Loop" "First") }]

theorem base_types_are_supertypes_circular :
    ∃ subject meetings names,
      let store := afterOpening circularClasses
      let resolver : Resolver := { autoLoad := false }
      let source := (openModule circularClasses).source
      (store.PlainHierarchy ∧ store.subjectOf source firstBaseTypes = .ok subject) ∧
      resolver.Walks source subject.isInterface store [subject.fullName] subject.supertypes store
        meetings ∧
      names.Nodup ∧ (∀ fullName, fullName ∈ names ↔ store.Lists subject fullName) ∧
      List.Forall₂ store.Shows names
        (meetings.filterMap (Resolver.Meeting.node subject.isInterface)) ∧
      store.children resolver source firstBaseTypes =
        (store, .ok (Node.sortByName
          (meetings.filterMap (Resolver.Meeting.node subject.isInterface)))) := by
  have hplain : (afterOpening circularClasses).PlainHierarchy :=
    Store.plainHierarchy_of_isPlain (by decide +kernel)
  have hexists : ∃ subject, (afterOpening circularClasses).subjectOf
      (openModule circularClasses).source firstBaseTypes = .ok subject :=
    Outcome.exists_eq_ok (by decide +kernel)
  rcases hexists with ⟨subject, hsubject⟩
  rcases base_types_are_supertypes none {} [openModule circularClasses] { autoLoad := false }
    (openModule circularClasses).source rfl hplain firstBaseTypes rfl subject hsubject with
    ⟨meetings, names, hnames⟩
  exact ⟨subject, meetings, names, ⟨hplain, hsubject⟩, hnames⟩

/-- The root of the class hierarchy, with an interface. -/
def formattableRoot : CodeModule where
  name := "Core.dll"
  runtimeVersion := ""
  types := #[
    { token := TableId.typeDef.token 1
      namespaceName := "System"
      name := "Object"
      flags := 0
      interfaces := [.ofName "System" "IFormattable"] },
    { token := TableId.typeDef.token 2
      namespaceName := "System"
      name := "IFormattable"
      flags := 0
      kind := .interfaceType }]

/-- Nothing leads on from the root, but its own base types are shown. -/
theorem root_shows_its_interfaces :
    ∃ subject nodes,
      let store := afterOpening formattableRoot
      let source := (openModule formattableRoot).source
      store.PlainHierarchy ∧ store.subjectOf source firstBaseTypes = .ok subject ∧
      store.children { autoLoad := false } source firstBaseTypes = (store, .ok nodes) ∧
      nodes ≠ [] ∧
      ∀ fullName,
        ¬ Relation.TransGen (store.Leads subject.isInterface) subject.fullName fullName := by
  have hplain : (afterOpening formattableRoot).PlainHierarchy :=
    Store.plainHierarchy_of_isPlain (by decide +kernel)
  have hwellFormed : (afterOpening formattableRoot).WellFormed :=
    wellFormed_run [openModule formattableRoot] Store.empty_wellFormed
  have hroot : ((afterOpening formattableRoot).subjectOf (openModule formattableRoot).source
      firstBaseTypes).toOption.any (fun subject =>
        subject.fullName == rootName && !subject.isInterface &&
          subject.definition.directSupertypes == ["System.IFormattable"]) = true := by
    decide +kernel
  rcases (Option.any_eq_true _ _).mp hroot with ⟨subject, hfound, hfacts⟩
  have hsubject := Outcome.eq_ok_of_toOption hfound
  rw [Bool.and_eq_true, Bool.and_eq_true, beq_iff_eq, beq_iff_eq, Bool.not_eq_true'] at hfacts
  rcases hfacts with ⟨⟨hname, hkind⟩, hsupertypes⟩
  have hresolver : ({ autoLoad := false } : Resolver).autoLoad = false := rfl
  rcases Store.children_baseTypes hresolver hwellFormed hplain rfl hsubject with
    ⟨meetings, names, _, _, hlists, hshows, hchildren⟩
  refine ⟨subject, _, hplain, hsubject, hchildren, fun hnone => ?_, fun fullName hleads => ?_⟩
  · have hlisted : "System.IFormattable" ∈ names := by
      refine (hlists _).mpr ⟨by rw [hname]; decide, ⟨_, ?_, .refl⟩, fun honly => ?_⟩
      · rw [hsupertypes]
        exact List.mem_singleton_self _
      · rw [hkind] at honly
        cases honly
    have hlength := hshows.length_eq
    rw [← (Node.sortByName_perm _).length_eq, hnone, List.length_nil] at hlength
    exact List.not_mem_nil (List.eq_nil_of_length_eq_zero hlength ▸ hlisted)
  · rcases Relation.TransGen.head'_iff.mp hleads with ⟨_, hfirst, _⟩
    exact hfirst.1 hname

end Worker

end AssemblyBrowser
