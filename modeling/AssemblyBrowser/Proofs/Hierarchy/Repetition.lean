import AssemblyBrowser.Navigator.Basic
import AssemblyBrowser.Proofs.Browsing.Nodes
import AssemblyBrowser.Proofs.Hierarchy.Walks

/-!
# Asking twice

Looking for base types opens archives on the way, so a second look may start from
a larger store than the first one did. It opens no archive for what the first one
met, and it shows the same exactly if all that the first one met would still be
shown as it was.
-/

namespace AssemblyBrowser

/-- If one choice only leaves out what another one takes, and takes as many, it is the same. -/
theorem eq_of_filterMap_length {α β : Type} {first second : α → Option β} {items : List α}
    (h : ∀ x ∈ items, second x = first x ∨ second x = none)
    (hlength : (items.filterMap second).length = (items.filterMap first).length) :
    ∀ x ∈ items, second x = first x := by
  have hle (rest : List α) (hrest : ∀ x ∈ rest, second x = first x ∨ second x = none) :
      (rest.filterMap second).length ≤ (rest.filterMap first).length := by
    induction rest with
    | nil => exact Nat.le_refl _
    | cons x rest ih =>
        have hlater := ih (List.forall_mem_cons.mp hrest).2
        rcases (List.forall_mem_cons.mp hrest).1 with hsame | hout
        · cases hx : first x <;> simpa [hx, hsame] using hlater
        · cases hx : first x <;> simp [hx, hout] <;> omega
  induction items with
  | nil => exact fun x hx => by cases hx
  | cons x rest ih =>
      rcases List.forall_mem_cons.mp h with ⟨hx, hrest⟩
      have hbound := hle rest hrest
      rcases hx with hsame | hout
      · refine List.forall_mem_cons.mpr ⟨hsame, ih hrest ?_⟩
        cases hx : first x <;> simpa [hx, hsame] using hlength
      · cases hx : first x with
        | none =>
            refine List.forall_mem_cons.mpr ⟨hout.trans hx.symm, ih hrest ?_⟩
            simpa [hx, hout] using hlength
        | some value =>
            simp [hx, hout] at hlength
            omega

namespace Resolver

variable {resolver : Resolver} {source : ArchiveSource} {interfacesOnly : Bool}
  {store final later last whole : Store} {seen : List String} {queue : List Supertype}
  {meetings others : List Meeting}

namespace Meeting

variable {meeting other : Meeting}

/-- The same supertype looked up in another store. -/
def again (resolver : Resolver) (source : ArchiveSource) (store : Store) (meeting : Meeting) :
    Meeting :=
  ofLookup resolver source store meeting.supertype meeting.name

/-- The node of a type is shown for that type only. -/
theorem definition_of_node (hwhole : whole.WellFormed) (hother : other.FoundIn whole)
    {found : PlacedType} (hplace : found.place ∈ whole.modules)
    (hfind : found.place.findType? other.name.fullName = some found)
    (hnode : other.node interfacesOnly = some found.node) : other.definition = some found := by
  rcases other.shown_or_hidden interfacesOnly with ⟨found', hdefinition, hshown⟩ | ⟨_, hhidden⟩
  · rw [hnode] at hshown
    rcases hother found' hdefinition with ⟨hplace', hfind'⟩
    rcases PlacedType.eq_of_node_eq hwhole hplace hplace' (Option.some.inj hshown) with ⟨hsame, _⟩
    rw [hsame, hfind'] at hfind
    rw [hdefinition, hfind]
  · exact absurd hnode (hhidden found)

theorem again_eq (h : (meeting.again resolver source store).definition = meeting.definition) :
    meeting.again resolver source store = meeting := by
  cases meeting
  exact congrArg (Meeting.mk _ _) h

/-- What a type is shown for goes on to the same supertypes if it is shown again. -/
theorem following_again (hwhole : whole.WellFormed) (hmeeting : meeting.FoundIn whole)
    (hagain : (meeting.again resolver source store).FoundIn whole)
    (hnode : (meeting.again resolver source store).node interfacesOnly =
      meeting.node interfacesOnly) :
    (meeting.again resolver source store).following interfacesOnly =
      meeting.following interfacesOnly := by
  -- A type that one of them shows is shown by both, and found by both.
  rcases meeting.shown_or_hidden interfacesOnly with
    ⟨found, hdefinition, hshown⟩ | ⟨hfollowing, _⟩
  · rcases hmeeting found hdefinition with ⟨hplace, hfind⟩
    have hsame := definition_of_node hwhole hagain hplace hfind (hnode.trans hshown)
    rw [again_eq (hsame.trans hdefinition.symm)]
  · rcases (meeting.again resolver source store).shown_or_hidden interfacesOnly with
      ⟨found, hdefinition, hshown⟩ | ⟨hnothing, _⟩
    · rcases hagain found hdefinition with ⟨hplace, hfind⟩
      have hsame := definition_of_node hwhole hmeeting hplace hfind (hnode.symm.trans hshown)
      rw [again_eq (hdefinition.trans hsame.symm)]
    · rw [hnothing, hfollowing]

/-- If every type that is shown for one of them is shown for the other, they look the same, unless
what could not be resolved is not shown any more. -/
theorem node_again (hwhole : whole.WellFormed) (hmeeting : meeting.FoundIn whole)
    (hagain : (meeting.again resolver source store).FoundIn whole)
    (hfirst : ∀ found, meeting.definition = some found →
      meeting.node interfacesOnly = some found.node →
        (meeting.again resolver source store).node interfacesOnly = some found.node)
    (hsecond : ∀ found, (meeting.again resolver source store).definition = some found →
      (meeting.again resolver source store).node interfacesOnly = some found.node →
        meeting.node interfacesOnly = some found.node)
    (hnone : (meeting.again resolver source store).definition = none →
      meeting.definition = none) :
    meeting.again resolver source store = meeting ∨
      ((meeting.again resolver source store).following interfacesOnly =
          meeting.following interfacesOnly ∧
        (meeting.again resolver source store).node interfacesOnly = none) := by
  rcases meeting.shown_or_hidden interfacesOnly with
    ⟨found, hdefinition, hshown⟩ | ⟨hfollowing, _⟩
  · rcases hmeeting found hdefinition with ⟨hplace, hfind⟩
    have hsame := definition_of_node hwhole hagain hplace hfind
      (hfirst found hdefinition hshown)
    exact .inl (again_eq (hsame.trans hdefinition.symm))
  · cases (meeting.again resolver source store).appears interfacesOnly with
    | resolved found hdefinition hkind hshown hnext =>
        rcases hagain found hdefinition with ⟨hplace, hfind⟩
        have hsame := definition_of_node hwhole hmeeting hplace hfind
          (hsecond found hdefinition hshown)
        exact .inl (again_eq (hdefinition.trans hsame.symm))
    | filtered found hdefinition honly hkind hshown hnext =>
        exact .inr ⟨hnext.trans hfollowing.symm, hshown⟩
    | unresolved hdefinition hkind hshown hnext =>
        exact .inl (again_eq (hdefinition.trans (hnone hdefinition).symm))
    | ignored hdefinition honly hkind hshown hnext =>
        exact .inr ⟨hnext.trans hfollowing.symm, hshown⟩

end Meeting

/-!
## Two walks
-/

namespace Walks

/-- A walk that is taken again in a later store opens nothing more and meets the same supertypes,
as long as what is met goes on to the same supertypes as before. -/
theorem again (h : Walks resolver source interfacesOnly store seen queue final meetings)
    (hstore : store.WellFormed) (hqueue : ∀ next ∈ queue, next.origin ∈ store.modules)
    (hlater : later.WellFormed) (hgrows : final.GrowsTo later)
    (hother : Walks resolver source interfacesOnly later seen queue last others)
    (hsame : ∀ meeting ∈ meetings, meeting.again resolver source later ∈ others →
      (meeting.again resolver source later).following interfacesOnly =
        meeting.following interfacesOnly) :
    last = later ∧ others = meetings.map (Meeting.again resolver source later) := by
  induction h generalizing others with
  | done => cases hother; exact ⟨rfl, rfl⟩
  | nameless hname _ ih =>
      exact ih hstore (List.forall_mem_cons.mp hqueue).2 hgrows
        (hother.of_nameless hname) hsame
  | known hname hseen _ ih =>
      exact ih hstore (List.forall_mem_cons.mp hqueue).2 hgrows
        (hother.of_known hname hseen) hsame
  | @meets store final _ supertype name _ _ hname hnew hrest ih =>
      have hopened :=
        (definition_opens resolver source hstore supertype.origin name).wellFormed hstore
      rcases hother.of_new hname hnew with ⟨next, rfl, hnext⟩
      -- The name was looked up before, so looking it up opens nothing.
      have hnothing : (resolver.definition source later supertype.origin name).1 = later :=
        definition_again hstore hlater (hqueue supertype List.mem_cons_self) name
          ((hrest.grows hopened).1.trans hgrows)
      have hfollowing := hsame _ List.mem_cons_self List.mem_cons_self
      change (Meeting.ofLookup resolver source later supertype name).following interfacesOnly =
        _ at hfollowing
      rw [hnothing, hfollowing] at hnext
      rcases ih hopened (origins_meets resolver source interfacesOnly hstore hqueue name) hgrows
        hnext (fun meeting hmeeting hagain => hsame meeting (List.mem_cons_of_mem _ hmeeting)
          (List.mem_cons_of_mem _ hagain)) with ⟨hlast, hothers⟩
      exact ⟨hlast, by rw [hothers]; rfl⟩

/-- A type that two walks show is shown by both for its name. -/
theorem node_of_mem (h : Walks resolver source interfacesOnly store seen queue final meetings)
    (hwhole : whole.WellFormed) (hfound : ∀ meeting ∈ meetings, meeting.FoundIn whole)
    {found : PlacedType} (hplace : found.place ∈ whole.modules)
    (hmem : found.node ∈ meetings.filterMap (Meeting.node interfacesOnly)) {meeting : Meeting}
    (hmeeting : meeting ∈ meetings) (hname : meeting.name.fullName = found.fullName) :
    meeting.node interfacesOnly = some found.node := by
  rcases List.mem_filterMap.mp hmem with ⟨other, hother, hnode⟩
  have hsame : other.name.fullName = found.fullName := by
    rcases other.shown_or_hidden interfacesOnly with ⟨found', hdefinition, hshown⟩ | ⟨_, hhidden⟩
    · rw [hnode] at hshown
      rcases PlacedType.eq_of_node_eq hwhole hplace (hfound other hother found' hdefinition).1
        (Option.some.inj hshown) with ⟨hplace', htoken⟩
      rw [← (hfound other hother).fullName hdefinition, PlacedType.fullName, PlacedType.fullName,
        hplace', htoken]
    · exact absurd hnode (hhidden found)
  rw [h.eq_of_name_eq hmeeting hother (hname.trans hsame.symm)]
  exact hnode

theorem definition_again_eq_none
    (h : Walks resolver source interfacesOnly store seen queue final meetings)
    (hstore : store.WellFormed) (hqueue : ∀ next ∈ queue, next.origin ∈ store.modules)
    {meeting : Meeting} (hmeeting : meeting ∈ meetings)
    (hnone : (meeting.again resolver source final).definition = none) :
    meeting.definition = none := by
  have hfinal := (h.grows hstore).2
  have horigin := h.origins hstore hqueue meeting hmeeting
  have hnowhere := findType?_of_definition_eq_none hfinal horigin meeting.name hnone
  cases hdefinition : meeting.definition with
  | none => rfl
  | some found =>
      rcases h.found hstore hqueue meeting hmeeting found hdefinition with ⟨hplace, hfind⟩
      have hopens := definition_opens resolver source hfinal meeting.supertype.origin meeting.name
      have hmissing := findType?_eq_none_iff.mp hnowhere found.place
        (hopens.growsTo.mem_modules hplace)
      rw [hfind] at hmissing
      cases hmissing

/-- A walk from where another one ended shows the same if and only if everything that was met would
still be shown as it was. -/
theorem again_iff (h : Walks resolver source interfacesOnly store seen queue final meetings)
    (hstore : store.WellFormed) (hqueue : ∀ next ∈ queue, next.origin ∈ store.modules)
    (hother : Walks resolver source interfacesOnly final seen queue last others) :
    Node.sortByName (others.filterMap (Meeting.node interfacesOnly)) =
        Node.sortByName (meetings.filterMap (Meeting.node interfacesOnly)) ↔
      ∀ meeting ∈ meetings,
        (meeting.again resolver source final).node interfacesOnly =
          meeting.node interfacesOnly := by
  have hfinal := (h.grows hstore).2
  have hqueueFinal : ∀ next ∈ queue, next.origin ∈ final.modules := fun next hnext =>
    (h.grows hstore).1.mem_modules (hqueue next hnext)
  rcases hother.grows hfinal with ⟨hgrows, hlast⟩
  have hfound : ∀ meeting ∈ meetings, meeting.FoundIn last := fun meeting hmeeting =>
    (h.found hstore hqueue meeting hmeeting).mono hgrows
  have hfoundAgain := hother.found hfinal hqueueFinal
  have hthroughout := h.again hstore hqueue hfinal (.refl final) hother
  constructor
  · intro hsame
    have hperm : (others.filterMap (Meeting.node interfacesOnly)).Perm
        (meetings.filterMap (Meeting.node interfacesOnly)) :=
      (Node.sortByName_perm _).symm.trans (hsame ▸ Node.sortByName_perm _)
    -- A type that one walk shows is shown by the other, and for the same name.
    have hlooks : ∀ meeting ∈ meetings, meeting.again resolver source final ∈ others →
        meeting.again resolver source final = meeting ∨
          ((meeting.again resolver source final).following interfacesOnly =
              meeting.following interfacesOnly ∧
            (meeting.again resolver source final).node interfacesOnly = none) := by
      intro meeting hmeeting hagain
      refine Meeting.node_again hlast (hfound meeting hmeeting) (hfoundAgain _ hagain) ?_ ?_
        (h.definition_again_eq_none hstore hqueue hmeeting)
      · intro found hdefinition hnode
        exact hother.node_of_mem hlast hfoundAgain (hfound meeting hmeeting found hdefinition).1
          (hperm.mem_iff.mpr (List.mem_filterMap.mpr ⟨meeting, hmeeting, hnode⟩)) hagain
          ((hfound meeting hmeeting).fullName hdefinition).symm
      · intro found hdefinition hnode
        exact h.node_of_mem hlast hfound (hfoundAgain _ hagain found hdefinition).1
          (hperm.mem_iff.mp (List.mem_filterMap.mpr ⟨_, hagain, hnode⟩)) hmeeting
          ((hfoundAgain _ hagain).fullName hdefinition).symm
    have hothers : others = meetings.map (Meeting.again resolver source final) := by
      refine (hthroughout fun meeting hmeeting hagain => ?_).2
      rcases hlooks meeting hmeeting hagain with hequal | ⟨hfollowing, _⟩
      · rw [hequal]
      · exact hfollowing
    rw [hothers, List.filterMap_map] at hperm
    refine eq_of_filterMap_length (fun meeting hmeeting => ?_) hperm.length_eq
    have hagain : meeting.again resolver source final ∈ others := by
      rw [hothers]
      exact List.mem_map_of_mem hmeeting
    rcases hlooks meeting hmeeting hagain with hequal | ⟨_, hhidden⟩
    · exact .inl (congrArg (Meeting.node interfacesOnly) hequal)
    · exact .inr hhidden
  · intro hsame
    rcases hthroughout fun meeting hmeeting hagain =>
      Meeting.following_again hlast (hfound meeting hmeeting) (hfoundAgain _ hagain)
        (hsame meeting hmeeting) with ⟨_, hothers⟩
    rw [hothers, List.filterMap_map]
    exact congrArg _ (List.filterMap_congr hsame)

end Walks

end Resolver

/-!
## Two calls
-/

namespace Navigator

variable {navigator : Navigator} {address : NodeAddress} {subject : PlacedType}

/-- Whether everything that a call for base types meets is shown as it would be in the store that
the call leaves. -/
def ShowsAlike (navigator : Navigator) (address : Option NodeAddress) : Prop :=
  ∀ group subject final meetings, address = some group → group.kind = .baseTypesGroup →
    navigator.store.subjectOf navigator.source group = .ok subject →
    navigator.settings.resolver.Walks navigator.source subject.isInterface navigator.store
      [subject.fullName] subject.supertypes final meetings →
    ∀ meeting ∈ meetings,
      (meeting.again navigator.settings.resolver navigator.source final).node subject.isInterface =
        meeting.node subject.isInterface

theorem children_baseTypes (hkind : address.kind = .baseTypesGroup)
    (hsubject : navigator.store.subjectOf navigator.source address = .ok subject) :
    navigator.children (some address) =
      ({ navigator with
          store := (navigator.settings.resolver.baseTypes navigator.source navigator.store
            subject).1 },
        (navigator.settings.resolver.baseTypes navigator.source navigator.store subject).2) := by
  simp only [children, Store.children, if_pos hkind, hsubject]
  rfl

theorem children_fst
    (hother : address.kind = .baseTypesGroup →
      ∀ subject, navigator.store.subjectOf navigator.source address ≠ .ok subject) :
    (navigator.children (some address)).1 = navigator := by
  by_cases hkind : address.kind = .baseTypesGroup
  · cases hsubject : navigator.store.subjectOf navigator.source address with
    | ok subject => exact absurd hsubject (hother hkind subject)
    | error error => simp only [children, Store.children, if_pos hkind, hsubject]
  · simp only [children, Store.children, if_neg hkind]

theorem children_twice_iff (hstore : navigator.store.WellFormed)
    (hdirectory : navigator.files.locate
      (FileSystem.placeText navigator.files.workingDirectory) =
        .ok navigator.files.workingDirectory)
    (address : Option NodeAddress) :
    ((navigator.children address).1.children address).2 = (navigator.children address).2 ↔
      navigator.ShowsAlike address := by
  cases address with
  | none =>
      constructor
      · intro _ group _ _ _ hgroup
        cases hgroup
      · exact fun _ => rfl
  | some group =>
      by_cases hsubject : group.kind = .baseTypesGroup ∧
          ∃ subject, navigator.store.subjectOf navigator.source group = .ok subject
      · rcases hsubject with ⟨hkind, subject, hsubject⟩
        have hplace := (Store.defines_of_subjectOf hsubject).1
        have hqueue := PlacedType.origin_of_mem_supertypes hplace
        rcases Resolver.baseTypes_walks navigator.settings.resolver navigator.source (fun _ => rfl)
          hstore hplace with ⟨meetings, hwalks, hnodes⟩
        have hgrows := hwalks.grows hstore
        have hnew := hwalks.new_paths hstore (FileSystem.normalize_normalize hdirectory)
        rcases Resolver.baseTypes_walks navigator.settings.resolver navigator.source (fun _ => rfl)
          hgrows.2 (hgrows.1.mem_modules hplace) with
          ⟨others, hother, hnodesAgain⟩
        have hsubjectAgain := Store.subjectOf_of_growsTo hgrows.1 hnew hsubject
        have hagain := @children_baseTypes { navigator with
          store := (navigator.settings.resolver.baseTypes navigator.source navigator.store
            subject).1 } group subject hkind hsubjectAgain
        have hiff := hwalks.again_iff hstore hqueue hother
        rw [children_baseTypes hkind hsubject]
        dsimp only
        rw [hagain, hnodes]
        refine Iff.trans (Iff.of_eq (congrArg (· = _) hnodesAgain)) (hiff.trans ?_)
        constructor
        · intro hsame other subject' final meetings' hgroup _ hok hwalks'
          cases hgroup
          cases Except.ok.inj (hsubject.symm.trans hok)
          rcases hwalks.functional hwalks' with ⟨rfl, rfl⟩
          exact hsame
        · intro hsame
          exact hsame group subject _ meetings rfl hkind hsubject hwalks
      · have hsame : (navigator.children (some group)).1 = navigator :=
          children_fst fun hkind subject hok => hsubject ⟨hkind, subject, hok⟩
        constructor
        · intro _ other subject _ _ hgroup hkind hok
          cases hgroup
          exact absurd ⟨hkind, subject, hok⟩ hsubject
        · intro _
          rw [hsame]

/-- Two calls for the children of one address give the same, whatever the worker has done before, if
and only if everything that the first call meets is shown as it would be in the store that the call
leaves. -/
theorem children_again_iff (sessionFile : Option String) (before : FileSystem)
    (events : List WorkerEvent) (settings : NavigatorSettings) (files : FileSystem)
    (hdirectory : files.locate (FileSystem.placeText files.workingDirectory) =
      .ok files.workingDirectory)
    (address : Option NodeAddress) :
    let navigator : Navigator :=
      { settings, files, store := ((Worker.start sessionFile before).run events).store }
    ((navigator.children address).1.children address).2 = (navigator.children address).2 ↔
      navigator.ShowsAlike address :=
  children_twice_iff (Worker.wellFormed_run events Store.empty_wellFormed) hdirectory address

/-- Whether everything that a call for base types meets is shown alike, if so many steps tell. -/
def showsAlikeWithin (fuel : Nat) (navigator : Navigator) (address : NodeAddress) :
    Option Bool := do
  let resolver := navigator.settings.resolver
  let subject ← (navigator.store.subjectOf navigator.source address).toOption
  let (final, meetings) ← resolver.walkWithin navigator.source subject.isInterface fuel
    navigator.store [subject.fullName] subject.supertypes
  return meetings.all fun meeting =>
    (meeting.again resolver navigator.source final).node subject.isInterface ==
      meeting.node subject.isInterface

theorem showsAlike_iff_of_within {fuel : Nat} {answer : Bool}
    (hkind : address.kind = .baseTypesGroup)
    (h : showsAlikeWithin fuel navigator address = some answer) :
    navigator.ShowsAlike (some address) ↔ answer = true := by
  rcases Option.bind_eq_some_iff.mp h with ⟨subject, hsubject, h⟩
  rcases Option.bind_eq_some_iff.mp h with ⟨⟨final, meetings⟩, hwithin, hanswer⟩
  have hwalks := Resolver.walks_of_walkWithin hwithin
  have hok := Outcome.eq_ok_of_toOption hsubject
  rw [← Option.some.inj hanswer, List.all_eq_true]
  simp only [beq_iff_eq]
  constructor
  · intro hsame
    exact hsame address subject final meetings rfl hkind hok hwalks
  · intro hsame other subject' final' meetings' hgroup _ hok' hwalks'
    cases hgroup
    cases Except.ok.inj (hok.symm.trans hok')
    rcases hwalks.functional hwalks' with ⟨rfl, rfl⟩
    exact hsame

/-!
## A library that another reference opens
-/

/-- A class whose base is said to be in some assembly, and which has an interface of a library. -/
def derivedClass (assembly : String) : CodeModule where
  name := "App.dll"
  runtimeVersion := ""
  types := #[
    { token := TableId.typeDef.token 1
      namespaceName := "App"
      name := "Derived"
      flags := 0
      base := some (.named { namespaceName := "Lib", name := "Base", scope := some assembly })
      interfaces :=
        [.named { namespaceName := "Lib", name := "IShape", scope := some "Lib" }] }]

/-- The library, which has the base class as well. -/
def baseLibrary : CodeModule where
  name := "Lib.dll"
  runtimeVersion := ""
  types := #[
    { token := TableId.typeDef.token 1, namespaceName := "Lib", name := "Base", flags := 0 },
    { token := TableId.typeDef.token 2, namespaceName := "Lib", name := "IShape", flags := 0,
      kind := .interfaceType }]

def libraryLoader (assembly : String) : ModuleLoader where
  ofFile _ path :=
    if path = "/App.dll" then .ok (derivedClass assembly)
    else if path = "/Lib.dll" then .ok baseLibrary
    else .error (.other path)
  ofBytes name _ := .error (.other name)

def libraryFiles : FileSystem where
  entries := [(["App.dll"], .file #[]), (["Lib.dll"], .file #[])]

def openDerived (assembly : String) : WorkerEvent where
  normalize := libraryFiles.normalize
  loader := libraryLoader assembly
  files := libraryFiles
  command := .add "/App.dll" none

def besideLibrary (assembly : String) : Navigator where
  settings := { loader := libraryLoader assembly }
  files := libraryFiles
  store := ((Worker.start none libraryFiles).run [openDerived assembly]).store

def derivedGroup : NodeAddress :=
  .group "/App.dll" none .baseTypesGroup (TableId.typeDef.token 1)

/-- The base class is in the library, which its first mention opens. -/
theorem children_again_iff_library :
    libraryFiles.locate (FileSystem.placeText libraryFiles.workingDirectory) =
        .ok libraryFiles.workingDirectory ∧
      (((besideLibrary "Lib").children (some derivedGroup)).1.children (some derivedGroup)).2 =
        ((besideLibrary "Lib").children (some derivedGroup)).2 := by
  have hdirectory : libraryFiles.locate (FileSystem.placeText libraryFiles.workingDirectory) =
      .ok libraryFiles.workingDirectory :=
    (FileSystem.Reached.root libraryFiles).locate_placeText
  have halike : showsAlikeWithin 4 (besideLibrary "Lib") derivedGroup = some true := by
    decide +kernel
  refine ⟨hdirectory, (children_again_iff none libraryFiles [openDerived "Lib"]
    { loader := libraryLoader "Lib" } libraryFiles hdirectory (some derivedGroup)).mpr ?_⟩
  exact (showsAlike_iff_of_within rfl halike).mpr rfl

/-- The base class is said to be in an assembly that is not there. It is not resolved before the
interface has opened the library, and it is found there by the next call. -/
theorem children_differ_once_opened :
    (((besideLibrary "Facade").children (some derivedGroup)).1.children (some derivedGroup)).2 ≠
      ((besideLibrary "Facade").children (some derivedGroup)).2 := by
  intro hsame
  have hwellFormed : (besideLibrary "Facade").store.WellFormed :=
    Worker.wellFormed_run [openDerived "Facade"] Store.empty_wellFormed
  have halike := (children_twice_iff hwellFormed
    (FileSystem.Reached.root libraryFiles).locate_placeText (some derivedGroup)).mp hsame
  have hdiffer : showsAlikeWithin 4 (besideLibrary "Facade") derivedGroup = some false := by
    decide +kernel
  cases (showsAlike_iff_of_within rfl hdiffer).mp halike

end Navigator
end AssemblyBrowser
