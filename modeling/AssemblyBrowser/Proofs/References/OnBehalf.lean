import AssemblyBrowser.Browse.Children
import AssemblyBrowser.Proofs.Addresses.Places
import AssemblyBrowser.Store.Worker

/-!
# Archives opened on behalf of others

Listing base types may open archives, each on behalf of one that is open already.
They stand behind all others, and those stay as they are, whatever the store was
before. None of this concerns the session.
-/

namespace AssemblyBrowser

namespace Store

/-- What a store becomes when archives are opened one after another, each on behalf of one that is
open by then. -/
inductive Serves (store : Store) : Store → Prop where
  | refl : Serves store store
  | opened {middle : Store} (h : Serves store middle) {archive : LoadedArchive} {parent : String}
      (hauto : archive.autoLoaded = true) (hparent : archive.parent = some parent)
      (hopen : parent ∈ middle.paths) :
      Serves store { archives := middle.archives ++ [archive] }

variable {store middle after : Store} {source : ArchiveSource} {parent : String}

theorem Serves.trans (h : store.Serves middle) (hafter : middle.Serves after) :
    store.Serves after := by
  induction hafter with
  | refl => exact h
  | opened _ hauto hparent hopen ih => exact .opened ih hauto hparent hopen

theorem Serves.mem_paths (h : store.Serves after) {path : String} (hmem : path ∈ store.paths) :
    path ∈ after.paths := by
  induction h with
  | refl => exact hmem
  | opened _ _ _ _ ih =>
      rw [paths, List.map_append]
      exact List.mem_append_left _ ih

/-- The new archives stand at the end, and each knows one before it as the one it was opened
for. -/
theorem Serves.exists_opened (h : store.Serves after) :
    ∃ opened, after.archives = store.archives ++ opened ∧
      ∀ (index : Nat) (hindex : index < opened.length), opened[index].autoLoaded = true ∧
        ∃ parent, opened[index].parent = some parent ∧
          parent ∈ (store.archives ++ opened.take index).map LoadedArchive.path := by
  induction h with
  | refl => exact ⟨[], (List.append_nil _).symm, fun index hindex => absurd hindex (by simp)⟩
  | @opened middle h archive parent hauto hparent hopen ih =>
      rcases ih with ⟨opened, hopened, heach⟩
      refine ⟨opened ++ [archive], by simp [hopened], ?_⟩
      intro index hindex
      by_cases hlast : index < opened.length
      · rw [List.getElem_append_left hlast, List.take_append_of_le_length (Nat.le_of_lt hlast)]
        exact heach index hlast
      · have hend : index = opened.length := by
          rw [List.length_append, List.length_singleton] at hindex
          omega
        subst hend
        rw [List.getElem_concat_length, List.take_left', ← hopened]
        · exact ⟨hauto, parent, hparent, hopen⟩
        · rfl
        · rfl

theorem add_serves (hopen : parent ∈ store.paths) (source : ArchiveSource) (path : String) :
    store.Serves (store.add source path (some parent)).1 := by
  rcases hadd : store.add source path (some parent) with ⟨after, outcome⟩
  have hstep := add_step hadd
  generalize outcome.added = added at hstep
  cases hstep with
  | idle => exact .refl
  | opened path parent contents hnew hload => exact .opened .refl rfl rfl hopen

end Store

namespace Resolver

variable {resolver : Resolver} {source : ArchiveSource} {store : Store}

theorem probe_serves {requesting : LoadedArchive} (hopen : requesting.path ∈ store.paths)
    (candidates : List String) : store.Serves (probe source requesting candidates store).1 := by
  induction candidates generalizing store with
  | nil => exact .refl
  | cons candidate rest ih =>
      rw [probe]
      split
      case isTrue =>
        have hserves := Store.add_serves hopen source candidate
        generalize store.add source candidate (some requesting.path) = added at hserves ⊢
        dsimp only
        split
        case isTrue => exact hserves
        case isFalse => exact hserves.trans (ih (hserves.mem_paths hopen))
      case isFalse => exact ih hopen

theorem resolve_serves (resolver : Resolver) (source : ArchiveSource) {requesting : LoadedArchive}
    (hopen : requesting.path ∈ store.paths) (name : String) :
    store.Serves (resolver.resolve source store requesting name).1 := by
  unfold resolve
  cases loaded? store name <|> beside? requesting name with
  | some found => exact .refl
  | none =>
      cases resolver.autoLoad with
      | false => exact .refl
      | true => exact probe_serves hopen _

theorem definition_serves (resolver : Resolver) (source : ArchiveSource) (store : Store)
    (origin : PlacedModule) (name : TypeName) :
    store.Serves (resolver.definition source store origin name).1 := by
  unfold definition
  cases name.scope with
  | none => exact .refl
  | some assembly =>
      cases hrequesting : store.find? source origin.archivePath with
      | none => exact .refl
      | some requesting =>
          have hopen : requesting.path ∈ store.paths :=
            List.mem_map_of_mem (Store.mem_archives_of_find? hrequesting)
          exact resolve_serves resolver source hopen assembly

theorem walk_serves (resolver : Resolver) (source : ArchiveSource) (interfacesOnly : Bool)
    (loads steps : Nat) (store : Store) (seen : List String) (queue : List Supertype) :
    store.Serves (walk resolver source interfacesOnly loads steps store seen queue).1 := by
  cases queue with
  | nil =>
      cases steps with
      | zero =>
          rw [walk]
          exact .refl
      | succ steps =>
          rw [walk]
          exact .refl
  | cons supertype rest =>
      cases steps with
      | zero =>
          rw [walk]
          exact .refl
      | succ steps =>
          rw [walk]
          cases supertype.type.typeName? with
          | none => exact walk_serves resolver source interfacesOnly loads steps store seen rest
          | some name =>
              dsimp only
              split
              case isTrue =>
                exact walk_serves resolver source interfacesOnly loads steps store seen rest
              case isFalse =>
                refine (definition_serves resolver source store supertype.origin name).trans ?_
                split
                case isTrue => exact walk_serves resolver source interfacesOnly loads steps ..
                case isFalse =>
                  cases loads with
                  | zero => exact .refl
                  | succ loads => exact walk_serves resolver source interfacesOnly loads ..
termination_by (loads, steps)

theorem baseTypes_serves (resolver : Resolver) (source : ArchiveSource) (store : Store)
    (subject : PlacedType) : store.Serves (resolver.baseTypes source store subject).1 :=
  walk_serves resolver source _ _ _ store _ _

end Resolver

theorem Store.children_serves (store : Store) (resolver : Resolver) (source : ArchiveSource)
    (address : NodeAddress) : store.Serves (store.children resolver source address).1 := by
  unfold children
  split
  case isTrue =>
    split
    case h_1 subject _ => exact resolver.baseTypes_serves source store subject
    case h_2 => exact .refl
  case isFalse => exact .refl

end AssemblyBrowser
