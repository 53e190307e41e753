import AssemblyBrowser.Proofs.Images.Lists
import AssemblyBrowser.Proofs.Images.Rows

/-!
# Names of nested types are read back

A loader finds the names around a type by walking outwards, over the types of a
module or over its references, with as many steps as there are rows. In a
description that is well nested no walk needs more, so every walk comes to the
outermost row.

A reference to a nested type names the reference to the type around it as its
place. The loader follows such places up to one that is a module or an assembly,
and puts the names that it has passed in front of the name of the type.
-/

namespace AssemblyBrowser

/-!
## Rows around rows
-/

theorem climb_eq {outer : Nat → Option Nat} {row fuel : Nat} {around : List Nat}
    (h : Surrounded outer row around) (hfuel : around.length ≤ fuel) :
    climb outer fuel row = around := by
  induction h generalizing fuel with
  | outermost hnone =>
      cases fuel with
      | zero => rfl
      | succ fuel => rw [climb, hnone]
  | inside hsome _ ih =>
      cases fuel with
      | zero => cases hfuel
      | succ fuel =>
          rw [climb, hsome]
          exact congrArg (_ :: ·) (ih (Nat.le_of_succ_le_succ hfuel))

namespace NamedRow

variable {rows : List NamedRow} {row next : Nat}

theorem outer?_bounds (h : outer? rows row = some next) : 1 ≤ row ∧ row ≤ rows.length := by
  obtain ⟨named, hnamed, -⟩ := Option.bind_eq_some_iff.mp h
  exact itemAt?_le hnamed

namespace WellNested

/-- Rows that stand inside rows before them are well nested. -/
theorem of_earlier
    (h : ∀ item ∈ numbered rows, ∀ next ∈ item.1.outer, 1 ≤ next ∧ next < item.2) :
    WellNested rows := by
  have hearlier : ∀ row next, outer? rows row = some next → 1 ≤ next ∧ next < row := by
    intro row next hsome
    obtain ⟨named, hnamed, hnext⟩ := Option.bind_eq_some_iff.mp hsome
    exact h (named, row) (mem_numbered.mpr hnamed) next hnext
  refine ⟨fun row next hsome => ?_, fun row => ?_⟩
  · have hbounds := hearlier row next hsome
    have hrow := outer?_bounds hsome
    omega
  · induction row using Nat.strongRecOn with
    | ind row ih =>
        cases hsome : outer? rows row with
        | none => exact ⟨[], .outermost hsome⟩
        | some next =>
            obtain ⟨around, hnext⟩ := ih next (hearlier row next hsome).2
            exact ⟨next :: around, .inside hsome hnext⟩

theorem surrounded_bounds (h : WellNested rows) {around : List Nat}
    (hsurrounded : Surrounded (outer? rows) row around) :
    ∀ other ∈ around, 1 ≤ other ∧ other ≤ rows.length := by
  induction hsurrounded with
  | outermost => exact fun other hmem => absurd hmem List.not_mem_nil
  | inside hsome _ ih => exact List.forall_mem_cons.mpr ⟨h.inside _ _ hsome, ih⟩

/-- The walk outwards ends, and passes fewer rows than there are. -/
theorem surrounded (h : WellNested rows) (hrow : 1 ≤ row ∧ row ≤ rows.length) :
    Surrounded (outer? rows) row (around rows row) ∧ (around rows row).length < rows.length := by
  obtain ⟨outside, hsurrounded⟩ := h.ends row
  have hlt := hsurrounded.length_lt
    (List.forall_mem_cons.mpr ⟨hrow, h.surrounded_bounds hsurrounded⟩)
  have hsame : around rows row = outside := climb_eq hsurrounded (Nat.le_of_lt hlt)
  rw [hsame]
  exact ⟨hsurrounded, hlt⟩

theorem around_of_some (h : WellNested rows) (hsome : outer? rows row = some next) :
    around rows row = next :: around rows next := by
  have hrow := (h.surrounded (outer?_bounds hsome)).1
  have hnext := (h.surrounded (h.inside row next hsome)).1
  exact hrow.unique (.inside hsome hnext)

theorem namespaceAt_of_some (h : WellNested rows) (hsome : outer? rows row = some next) :
    namespaceAt rows row = namespaceAt rows next := by
  rw [namespaceAt, h.around_of_some hsome, List.getLast?_cons, Option.getD_some, namespaceAt]

end WellNested

theorem around_of_none (hnone : outer? rows row = none) : around rows row = [] := by
  unfold around
  cases rows.length with
  | zero => rfl
  | succ count => rw [climb, hnone]

theorem namespaceAt_of_none (hnone : outer? rows row = none) :
    namespaceAt rows row = ownNamespaceAt rows row := by
  rw [namespaceAt, around_of_none hnone]
  rfl

/-- What stands in front of a name, told from a walk that has found the names and the namespaces
around it. -/
theorem WellNested.qualifier_eq {α : Type} (h : WellNested rows) {chain : List α}
    {name namespaceName : α → String}
    (hnames : chain.map name = (around rows row).map (nameAt rows))
    (hspaces : chain.map namespaceName = (around rows row).map (ownNamespaceAt rows)) :
    (if chain.isEmpty then
        (chain.getLast?.map namespaceName).getD (ownNamespaceAt rows row)
      else
        dotted ((chain.getLast?.map namespaceName).getD (ownNamespaceAt rows row))
          (chain.reverse.map name)) = qualifier rows row := by
  have hempty : chain.isEmpty = (around rows row).isEmpty := by
    rw [← List.isEmpty_map (f := name), hnames, List.isEmpty_map]
  rw [hempty, ← List.getLast?_map, hspaces, List.map_reverse, hnames]
  unfold qualifier
  cases houter : outer? rows row with
  | none =>
      rw [around_of_none houter]
      exact (namespaceAt_of_none houter).symm
  | some next =>
      rw [h.around_of_some houter, List.getLast?_map, List.getLast?_cons, ← List.map_reverse]
      rfl

end NamedRow

/-!
## References to types are read back
-/

/-- The token of the place where a type is. -/
def ScopeDraft.token : ScopeDraft → Token
  | .thisModule => TableId.module.token 1
  | .assembly row => TableId.assemblyRef.token row
  | .reference row => TableId.typeRef.token row

theorem ScopeDraft.decode_cell {scope : ScopeDraft}
    (hassembly : ∀ row, scope = .assembly row → row ≠ 0)
    (hreference : ∀ row, scope = .reference row → row ≠ 0) :
    CodedIndex.resolutionScope.decode scope.cell = scope.token := by
  cases scope with
  | thisModule => exact CodedIndex.decode_encode rfl Nat.one_ne_zero
  | assembly row => exact CodedIndex.decode_encode rfl (hassembly row rfl)
  | reference row => exact CodedIndex.decode_encode rfl (hreference row rfl)

namespace ModuleDraft

open ImageMetadata (RawTypeReference scopeChain)

variable {module : ModuleDraft} {row next : Nat}

theorem length_referenceNames (module : ModuleDraft) :
    module.referenceNames.length = module.typeReferences.length := List.length_map _

theorem outer?_referenceNames {type : TypeReferenceDraft}
    (htype : itemAt? module.typeReferences row = some type) :
    NamedRow.outer? module.referenceNames row = type.scope.outer := by
  rw [NamedRow.outer?, referenceNames, itemAt?_map, htype]
  rfl

/-- What stands in the row of a reference. -/
def rawReference (type : TypeReferenceDraft) : RawTypeReference where
  scope := type.scope.token
  name := type.name
  namespaceName := type.namespaceName

def rawReferences (module : ModuleDraft) : Array RawTypeReference :=
  (module.typeReferences.map rawReference).toArray

theorem rowOf?_rawReferences (hsmall : module.typeReferences.length < 0x1000000)
    {type : TypeReferenceDraft} (htype : itemAt? module.typeReferences row = some type) :
    TypeScope.rowOf? module.rawReferences (TableId.typeRef.token row) =
      some (rawReference type) := by
  have hbounds := itemAt?_le htype
  have hrow : (TableId.typeRef.token row).row = row := Token.row_ofParts _ _ (by omega)
  rw [TypeScope.rowOf?, hrow, if_neg (by omega), rawReferences, List.getElem?_toArray,
    List.getElem?_map, (itemAt?_eq_some.mp htype).2]
  rfl

/-- The scopes around a reference are followed up to the outermost one. -/
theorem scopeChain_eq (hnested : NamedRow.WellNested module.referenceNames)
    (hsmall : module.typeReferences.length < 0x1000000) {around : List Nat}
    (hsurrounded : Surrounded (NamedRow.outer? module.referenceNames) row around)
    {type : TypeReferenceDraft} (htype : itemAt? module.typeReferences row = some type)
    {fuel : Nat} (hfuel : around.length < fuel) :
    ∃ chain outermost,
      itemAt? module.typeReferences (around.getLast?.getD row) = some outermost ∧
        scopeChain module.rawReferences fuel type.scope.token =
          (chain, some outermost.scope.token) ∧
        outermost.scope.outer = none ∧
        chain.map RawTypeReference.name =
          around.map (NamedRow.nameAt module.referenceNames) ∧
        chain.map RawTypeReference.namespaceName =
          around.map (NamedRow.ownNamespaceAt module.referenceNames) := by
  induction hsurrounded generalizing type fuel with
  | outermost hnone =>
      rw [outer?_referenceNames htype] at hnone
      obtain ⟨less, rfl⟩ := Nat.exists_eq_add_of_lt hfuel
      have hscope : ¬ (type.scope.token.table = TableId.typeRef.number ∧
          ¬ type.scope.token.isNull = true) := by
        rintro ⟨htable, -⟩
        cases hplace : type.scope with
        | thisModule => rw [hplace] at htable; exact absurd htable (by decide)
        | assembly row =>
            rw [hplace, ScopeDraft.token, TableId.table_token] at htable
            exact absurd htable (by decide)
        | reference row => rw [hplace] at hnone; cases hnone
      refine ⟨[], type, htype, ?_, hnone, rfl, rfl⟩
      rw [scopeChain, if_neg hscope]
  | @inside row next around hsome hrest ih =>
      rw [outer?_referenceNames htype] at hsome
      have hscope : type.scope = .reference next := by
        cases hplace : type.scope with
        | thisModule => rw [hplace] at hsome; cases hsome
        | assembly row => rw [hplace] at hsome; cases hsome
        | reference row =>
            rw [hplace] at hsome
            exact congrArg ScopeDraft.reference (Option.some.inj hsome)
      have hbounds := hnested.inside row next (by rw [outer?_referenceNames htype, hsome])
      rw [length_referenceNames] at hbounds
      obtain ⟨inner, hinner⟩ := exists_itemAt? hbounds.1 hbounds.2
      have hnumber : (TableId.typeRef.token next).row = next := Token.row_ofParts _ _ (by omega)
      cases fuel with
      | zero => exact absurd hfuel (Nat.not_lt_zero _)
      | succ fuel =>
          obtain ⟨chain, outermost, houtermost, hchain, hend, hnames, hspaces⟩ :=
            ih hinner (Nat.lt_of_succ_lt_succ hfuel)
          refine ⟨rawReference inner :: chain, outermost, ?_, ?_, hend, ?_, ?_⟩
          · rw [List.getLast?_cons, Option.getD_some]
            exact houtermost
          · have hnested : (TableId.typeRef.token next).table = TableId.typeRef.number ∧
                ¬ (TableId.typeRef.token next).isNull = true := by
              refine ⟨TableId.table_token _ _, ?_⟩
              simp only [Token.isNull, hnumber, beq_iff_eq]
              omega
            rw [hscope, ScopeDraft.token, scopeChain, if_pos hnested,
              rowOf?_rawReferences hsmall hinner]
            dsimp only [rawReference]
            rw [hchain]
          · rw [List.map_cons, List.map_cons, hnames]
            simp only [NamedRow.nameAt, referenceNames, itemAt?_map, hinner]
            rfl
          · rw [List.map_cons, List.map_cons, hspaces]
            simp only [NamedRow.ownNamespaceAt, referenceNames, itemAt?_map, hinner]
            rfl

theorem referenceName?_shown (module : ModuleDraft) (row : Nat) :
    ImageMetadata.referenceName? module.shownReferences.toArray row =
      (itemAt? module.references row).map ReferenceDraft.name := by
  unfold ImageMetadata.referenceName? itemAt?
  split
  · rfl
  · rw [List.getElem?_toArray, shownReferences, List.getElem?_map, numbered,
      List.getElem?_zipIdx, Option.map_map, Option.map_map]
    rfl

/-- The assembly of the outermost reference is the one that the walk has ended at. -/
theorem referenceScope_eq {outermost : TypeReferenceDraft}
    (houtermost : itemAt? module.typeReferences
      ((NamedRow.around module.referenceNames row).getLast?.getD row) = some outermost)
    (hend : outermost.scope.outer = none)
    (hassembly : ∀ assembly, outermost.scope = .assembly assembly → assembly < 0x1000000) :
    (do
      let scope ← some outermost.scope.token
      guard (scope.table = TableId.assemblyRef.number)
      ImageMetadata.referenceName? module.shownReferences.toArray scope.row) =
        module.referenceScope row := by
  unfold referenceScope
  dsimp only
  rw [houtermost, Option.map_some]
  cases hscope : outermost.scope with
  | thisModule => rfl
  | assembly assembly =>
      have htable : (ScopeDraft.assembly assembly).token.table = TableId.assemblyRef.number :=
        TableId.table_token _ _
      have hrow : (ScopeDraft.assembly assembly).token.row = assembly :=
        Token.row_ofParts _ _ (hassembly assembly hscope)
      simp only [Option.bind_eq_bind, Option.bind_some, htable, hrow, guard_true,
        referenceName?_shown]
      rfl
  | reference inner =>
      rw [hscope] at hend
      cases hend

/-- A reference goes by the name that its chain spells. -/
theorem typeReferenceName_eq (hnested : NamedRow.WellNested module.referenceNames)
    (hsmall : module.typeReferences.length < 0x1000000)
    (hassemblies : ∀ type ∈ module.typeReferences, ∀ assembly, type.scope = .assembly assembly →
      assembly < 0x1000000) {type : TypeReferenceDraft} {index : Nat}
    (htype : itemAt? module.typeReferences (index + 1) = some type) :
    ImageMetadata.typeReferenceName module.shownReferences.toArray module.rawReferences
      (rawReference type) index = .ok (module.referenceName (index + 1)) := by
  have hbounds := itemAt?_le htype
  have hsurrounded := hnested.surrounded (length_referenceNames module ▸ hbounds)
  have hsize : module.rawReferences.size = module.typeReferences.length := by
    rw [rawReferences, List.size_toArray, List.length_map]
  rw [length_referenceNames, ← hsize] at hsurrounded
  obtain ⟨chain, outermost, houtermost, hchain, hend, hnames, hspaces⟩ :=
    scopeChain_eq hnested hsmall hsurrounded.1 htype (Nat.lt_succ_of_lt hsurrounded.2)
  have hword : UInt32.size = 0x100000000 := rfl
  have hindex : Bounded.add UInt32.size (index % UInt32.size) 1 = .ok (index + 1) := by
    rw [Nat.mod_eq_of_lt (by omega), Bounded.add_eq_ok (by omega)]
  unfold ImageMetadata.typeReferenceName
  dsimp only [rawReference]
  rw [hchain]
  dsimp only
  have hown : NamedRow.ownNamespaceAt module.referenceNames (index + 1) = type.namespaceName := by
    simp only [NamedRow.ownNamespaceAt, referenceNames, itemAt?_map, htype]
    rfl
  have hname : NamedRow.nameAt module.referenceNames (index + 1) = type.name := by
    simp only [NamedRow.nameAt, referenceNames, itemAt?_map, htype]
    rfl
  have hqualifier := hnested.qualifier_eq hnames hspaces
  rw [hown] at hqualifier
  have hscope := referenceScope_eq houtermost hend (hassemblies _ (itemAt?_mem houtermost))
  rw [hindex, Outcome.ok_bind, hscope]
  refine congrArg Except.ok ?_
  rw [referenceName, ← hqualifier, hname]
  rfl

end ModuleDraft

namespace ImageDraft

section References

open ImageMetadata (RawTypeReference)

variable {metadata : ImageMetadata} {draft : ImageDraft} {module : ModuleDraft}
  {order : List AccessorDraft} (holds : Holds metadata draft)
  (encodes : draft.Encodes module order) (wellFormed : module.WellFormed)

include holds encodes

theorem typeReferences_lt : module.typeReferences.length < 0x10000 := by
  rw [← encodes.typeReferences.length_eq]
  by_cases hrows : draft.rows .typeRef = []
  · rw [hrows]
    decide
  · exact holds.rows_lt_of_coded .resolutionScope hrows (by decide) (by decide)

include wellFormed

theorem assembly_lt {type : TypeReferenceDraft} (hmem : type ∈ module.typeReferences)
    {assembly : Nat} (hscope : type.scope = .assembly assembly) : assembly < 0x10000 := by
  have hle := ((wellFormed.typeReferences type hmem).assembly assembly (by rw [hscope]; rfl)).2
  have hrows : draft.rows .typeRef ≠ [] := by
    intro hnone
    have hlength := encodes.typeReferences.length_eq
    rw [hnone, List.length_nil] at hlength
    exact List.ne_nil_of_mem hmem (List.length_eq_zero_iff.mp hlength.symm)
  have hlt : (draft.rows .assemblyRef).length < 0x10000 :=
    holds.rows_lt_of_coded .resolutionScope hrows (by decide) (by decide)
  rw [encodes.references.length_eq] at hlt
  omega

omit encodes in
theorem rawTypeReference_eq {type : TypeReferenceDraft} {row : Nat} {cells : List Nat}
    (htype : itemAt? module.typeReferences row = some type)
    (hform : draft.TypeReferenceRow type cells) (hrow : RowHolds metadata .typeRef row cells) :
    metadata.rawTypeReference row = .ok (ModuleDraft.rawReference type) := by
  have htypeFormed := wellFormed.typeReferences type (itemAt?_mem htype)
  have hreference : ∀ inner, type.scope = .reference inner → inner ≠ 0 := by
    intro inner hscope
    have hinside := wellFormed.referenceNesting.inside row inner
      (by rw [ModuleDraft.outer?_referenceNames htype, hscope]; rfl)
    omega
  have hassembly : ∀ assembly, type.scope = .assembly assembly → assembly ≠ 0 := by
    intro assembly hscope
    have hone := (htypeFormed.assembly assembly (by rw [hscope]; rfl)).1
    omega
  cases hform with
  | mk hname hnamespace =>
      have hscope : metadata.tables.coded .typeRef row 0 .resolutionScope =
          .ok type.scope.token := by
        unfold TableStream.coded
        rw [hrow.value rfl, Outcome.ok_bind, ScopeDraft.decode_cell hassembly hreference]
        rfl
      unfold ImageMetadata.rawTypeReference
      rw [hscope, Outcome.ok_bind, holds.string (hrow.value rfl) hname htypeFormed.name,
        Outcome.ok_bind, holds.string (hrow.value rfl) hnamespace htypeFormed.namespaceName,
        Outcome.ok_bind]
      rfl

theorem typeReferences_eq :
    metadata.typeReferences module.shownReferences.toArray =
      .ok ((List.range' 1 module.typeReferences.length).map module.referenceName).toArray := by
  have hlt := typeReferences_lt holds encodes
  have hraw : (metadata.rows .typeRef).mapM metadata.rawTypeReference =
      .ok (module.typeReferences.map ModuleDraft.rawReference) := by
    rw [← map_item_numbered]
    exact mapM_written holds encodes.typeReferences fun row type cells htype hform hrow =>
      rawTypeReference_eq holds wellFormed htype hform hrow
  have hnames : (module.typeReferences.map ModuleDraft.rawReference).zipIdx.mapM (fun type =>
      ImageMetadata.typeReferenceName module.shownReferences.toArray module.rawReferences type.1
        type.2) = .ok ((module.typeReferences.map ModuleDraft.rawReference).zipIdx.map fun type =>
          module.referenceName (type.2 + 1)) := by
    refine Outcome.mapM_of_forall fun (raw, index) hmem => ?_
    rw [List.mem_zipIdx_iff_getElem?, List.getElem?_map] at hmem
    obtain ⟨type, htype, rfl⟩ := Option.map_eq_some_iff.mp hmem
    exact ModuleDraft.typeReferenceName_eq wellFormed.referenceNesting
      (Nat.lt_trans hlt (by decide))
      (fun other hother assembly hscope => Nat.lt_trans
        (assembly_lt holds encodes wellFormed hother hscope) (by decide))
      (itemAt?_eq_some.mpr ⟨Nat.le_add_left 1 index, htype⟩)
  have hrows : ((module.typeReferences.map ModuleDraft.rawReference).zipIdx.map fun type =>
      module.referenceName (type.2 + 1)) =
        (List.range' 1 module.typeReferences.length).map module.referenceName := by
    have hshift : (List.range' 0 module.typeReferences.length).map (1 + ·) =
        List.range' 1 module.typeReferences.length := List.map_add_range' ..
    rw [← hshift, List.map_map, ← List.length_map ModuleDraft.rawReference,
      ← List.zipIdx_map_snd, List.map_map]
    refine List.map_congr_left fun type _ => ?_
    rw [Function.comp_apply, Function.comp_apply, Nat.add_comm]
  unfold ImageMetadata.typeReferences
  rw [hraw, Outcome.ok_bind]
  refine (congrArg (· >>= fun names => pure names.toArray) hnames).trans ?_
  rw [Outcome.ok_bind, hrows]
  rfl

end References

end ImageDraft
end AssemblyBrowser
