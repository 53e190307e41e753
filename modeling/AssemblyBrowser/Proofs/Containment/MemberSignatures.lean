import AssemblyBrowser.Proofs.Containment.Redirections
import AssemblyBrowser.Proofs.Containment.TwoRuns

/-!
# Damaged signatures of members

Wherever the index of a member's signature leads, the image loads, and nothing but
the types of that one member may differ. Only the names of parameters must be there
to be read: rows beyond the parameters of a signature are not looked at, so an index
that leads to more parameters may lead to names that cannot be read.
-/

namespace AssemblyBrowser

/-- The members that have signatures of their own. -/
inductive SignedMember where
  | field
  | method
  | property
  deriving DecidableEq

namespace SignedMember

def table : SignedMember → TableId
  | field => .field
  | method => .methodDef
  | property => .property

/-- The column of the signatures. -/
def column : SignedMember → Nat
  | method => 4
  | field | property => 2

theorem signatureColumn?_table (member : SignedMember) :
    member.table.signatureColumn? = some member.column := by
  cases member <;> rfl

theorem table_injective : Function.Injective table := by
  intro member other heq
  cases member <;> cases other <;> first | rfl | cases heq

end SignedMember

/-- The module with other types in the signature of one member. -/
def CodeModule.ResignedAt (before : CodeModule) (member : SignedMember) (row : Nat)
    (after : CodeModule) : Prop :=
  match member with
  | .field => ∃ type, after =
      { before with
        fields := before.fields.modify (row - 1) fun field => { field with type } }
  | .method => ∃ returnType parameters, after =
      { before with
        methods := before.methods.modify (row - 1) fun method =>
          { method with returnType, parameters } }
  | .property => ∃ type parameters, after =
      { before with
        properties := before.properties.modify (row - 1) fun property =>
          { property with type, parameters } }

/-!
## One signature only
-/

namespace Leeway

/-- Nothing may differ but the signature of one member. -/
def only (member : SignedMember) (row : Nat) : Leeway where
  lineage _ before after := after = before
  field place before after := ¬ (member = .field ∧ place = row) → after = before
  method place before after := ¬ (member = .method ∧ place = row) → after = before
  property place before after := ¬ (member = .property ∧ place = row) → after = before
  event _ before after := after = before

variable {member : SignedMember} {row : Nat} {before after : CodeModule}

theorem Within.fields_eq (h : (only member row).Within before after) (hmember : member ≠ .field) :
    after.fields = before.fields :=
  h.fields.eq fun _ _ _ ⟨hrest, htype⟩ =>
    hrest.trans (by rw [htype fun hboth => hmember hboth.1])

theorem Within.methods_eq (h : (only member row).Within before after)
    (hmember : member ≠ .method) : after.methods = before.methods :=
  h.methods.eq fun _ _ _ ⟨hrest, hsignature⟩ => by
    obtain ⟨hresult, hparameters⟩ := Prod.mk.inj (hsignature fun hboth => hmember hboth.1)
    exact hrest.trans (by rw [hresult, hparameters])

theorem Within.properties_eq (h : (only member row).Within before after)
    (hmember : member ≠ .property) : after.properties = before.properties :=
  h.properties.eq fun _ _ _ ⟨hrest, hsignature⟩ => by
    obtain ⟨htype, hparameters⟩ := Prod.mk.inj (hsignature fun hboth => hmember hboth.1)
    exact hrest.trans (by rw [htype, hparameters])

theorem Within.resignedAt (h : (only member row).Within before after) (hrow : 1 ≤ row) :
    before.ResignedAt member row after := by
  have htypes : after.types = before.types :=
    h.types.eq fun _ _ _ ⟨hrest, hlineage⟩ => by
      obtain ⟨hbase, hinterfaces⟩ := Prod.mk.inj hlineage
      obtain ⟨hinterfaces, hkind⟩ := Prod.mk.inj hinterfaces
      exact hrest.trans (by rw [hbase, hinterfaces, hkind])
  have hevents : after.events = before.events :=
    h.events.eq fun _ _ _ ⟨hrest, htype⟩ => hrest.trans (by rw [htype])
  have hrest := h.rest
  rw [htypes, hevents] at hrest
  cases member with
  | field =>
      rw [h.methods_eq (by decide), h.properties_eq (by decide)] at hrest
      refine ⟨((after.fields[row - 1]?).map FieldDefinition.type).getD .object, hrest.trans ?_⟩
      congr 1
      refine h.fields.eq_modify hrow (fun _ _ _ hxy hne => ?_) fun x y hxy hy => ?_
      · exact hxy.1.trans (by rw [hxy.2 fun hboth => hne hboth.2])
      · simpa [hy] using hxy.1
  | method =>
      rw [h.fields_eq (by decide), h.properties_eq (by decide)] at hrest
      refine ⟨((after.methods[row - 1]?).map MethodDefinition.returnType).getD .object,
        ((after.methods[row - 1]?).map MethodDefinition.parameters).getD [], hrest.trans ?_⟩
      congr 1
      refine h.methods.eq_modify hrow (fun _ _ _ hxy hne => ?_) fun x y hxy hy => ?_
      · obtain ⟨hresult, hparameters⟩ := Prod.mk.inj (hxy.2 fun hboth => hne hboth.2)
        exact hxy.1.trans (by rw [hresult, hparameters])
      · simpa [hy] using hxy.1
  | property =>
      rw [h.fields_eq (by decide), h.methods_eq (by decide)] at hrest
      refine ⟨((after.properties[row - 1]?).map PropertyDefinition.type).getD .object,
        ((after.properties[row - 1]?).map PropertyDefinition.parameters).getD [],
        hrest.trans ?_⟩
      congr 1
      refine h.properties.eq_modify hrow (fun _ _ _ hxy hne => ?_) fun x y hxy hy => ?_
      · obtain ⟨htype, hparameters⟩ := Prod.mk.inj (hxy.2 fun hboth => hne hboth.2)
        exact hxy.1.trans (by rw [htype, hparameters])
      · simpa [hy] using hxy.1

end Leeway

/-!
## Names of parameters
-/

namespace ImageMetadata

/-- Where a row names a parameter that the signature of the method has, the name can be read. -/
def ParametersNamed (metadata : ImageMetadata) (row : Nat) : Prop :=
  ∀ signature, (metadata.blob .methodDef row 4).bind Signature.method.parse = .ok signature →
    ∀ range, metadata.tables.listRange .methodDef row 5 .param = .ok range →
      ∀ pointer ∈ List.range' range.1 (range.2 - range.1), ∀ place sequence,
        metadata.tables.indirect .paramPtr pointer = .ok place →
          metadata.tables.value .param place 1 = .ok sequence → 1 ≤ sequence →
            sequence ≤ signature.parameters.length →
              ∃ name, metadata.string .param place 2 = .ok name

variable {metadata changed : ImageMetadata} {scope : TypeScope}

/-- A method has as many parameters as its signature; without a signature it has none. -/
theorem length_methodTypes {names : GenericNames} {row : Nat} {types : TypeExpr × List Parameter}
    (h : metadata.methodTypes scope names row = .ok types) :
    types.2 = [] ∨ ∃ signature,
      (metadata.blob .methodDef row 4).bind Signature.method.parse = .ok signature ∧
        types.2.length = signature.parameters.length := by
  obtain ⟨signature?, hattempt, h⟩ := Outcome.bind_eq_ok.mp h
  cases signature? with
  | none =>
      rw [← Outcome.pure_eq_ok.mp h]
      exact .inl rfl
  | some signature =>
      obtain ⟨result, -, h⟩ := Outcome.bind_eq_ok.mp h
      obtain ⟨parameters, hparameters, h⟩ := Outcome.bind_eq_ok.mp h
      rw [← Outcome.pure_eq_ok.mp h]
      refine .inr ⟨signature, Answers.eq_ok_of_attempt hattempt, ?_⟩
      exact (Outcome.mapM_eq_ok.mp hparameters).length_eq.symm

/-- Where some parameters could be named, any others can, if the names for them can be read. -/
theorem exists_nameParameters {pointers : List Nat} {parameters named others : List Parameter}
    (hread : metadata.nameParameters parameters pointers = .ok named)
    (hnames : ∀ pointer ∈ pointers, ∀ place sequence,
      metadata.tables.indirect .paramPtr pointer = .ok place →
        metadata.tables.value .param place 1 = .ok sequence → 1 ≤ sequence →
          sequence ≤ others.length → ∃ name, metadata.string .param place 2 = .ok name) :
    ∃ renamed, metadata.nameParameters others pointers = .ok renamed := by
  induction pointers generalizing parameters others with
  | nil => exact ⟨others, rfl⟩
  | cons pointer rest ih =>
      have hrest := fun pointer hmem => hnames pointer (List.mem_cons_of_mem _ hmem)
      rw [nameParameters] at hread ⊢
      obtain ⟨place, hplace, hread⟩ := Outcome.bind_eq_ok.mp hread
      rw [hplace, Outcome.ok_bind]
      split at hread
      case isTrue hmissing =>
        rw [if_pos hmissing]
        exact ih hread hrest
      case isFalse hmissing =>
        rw [if_neg hmissing]
        obtain ⟨sequence, hsequence, hread⟩ := Outcome.bind_eq_ok.mp hread
        rw [hsequence, Outcome.ok_bind]
        have hafter : ∃ after, metadata.nameParameters after rest = .ok named := by
          split at hread
          case isTrue => exact ⟨_, hread⟩
          case isFalse =>
            obtain ⟨name, -, hread⟩ := Outcome.bind_eq_ok.mp hread
            exact ⟨_, hread⟩
        obtain ⟨after, hafter⟩ := hafter
        split
        case isTrue => exact ih hafter hrest
        case isFalse hinside =>
          obtain ⟨name, hname⟩ := hnames pointer List.mem_cons_self place sequence hplace hsequence
            (by omega) (by omega)
          rw [hname, Outcome.ok_bind]
          exact ih hafter (by simpa using hrest)

end ImageMetadata

/-!
## Two runs
-/

namespace ImageMetadata

variable {metadata changed : ImageMetadata} {member : SignedMember} {row index : Nat}

/-- The other members have the same signatures. -/
theorem Redirected.blob_eq (h : metadata.Redirected changed member.table row member.column index)
    (other : SignedMember) {place : Nat} (hne : ¬ (member = other ∧ place = row)) :
    changed.blob other.table place other.column = metadata.blob other.table place other.column := by
  refine h.blob (by cases other <;> decide) place fun heq => hne ?_
  obtain ⟨htable, hplace⟩ := Prod.mk.inj heq
  exact ⟨(SignedMember.table_injective htable).symm, (Prod.mk.inj hplace).1⟩

/-- Nothing but one signature differs between the images, and it stands for something. -/
theorem Redirected.parallel
    (h : metadata.Redirected changed member.table row member.column index)
    (hopened : changed.Opened) (hnames : member = .method → changed.ParametersNamed row)
    {scope : TypeScope} (hfit : scope.SignaturesFit) :
    Parallel (Leeway.only member row) metadata changed scope scope := by
  have hsame := h.sameButSignatures member.signatureColumn?_table
  constructor
  case same => exact hsame
  case type =>
    intro m implementations _ place
    rw [hsame.typeWithHierarchy]
    exact .of_eq rfl fun _ => ⟨rfl, rfl⟩
  case event => exact fun _ _ _ => .of_eq rfl fun _ => rfl
  case field =>
    intro names place
    by_cases hhere : member = .field ∧ place = row
    · have hsignature := answers_signature hopened Signature.safe_field .field place 2
      exact .of_exists (TypeScope.exists_signatureOrObject hfit names hsignature)
        fun _ _ hne => absurd hhere hne
    · have hblob : changed.blob .field place 2 = metadata.blob .field place 2 :=
        h.blob_eq .field hhere
      rw [hblob]
      exact .of_eq rfl fun _ _ => rfl
  case property =>
    intro names place
    by_cases hhere : member = .property ∧ place = row
    · exact .of_exists (exists_propertyTypes hopened hfit names place) fun _ _ hne =>
        absurd hhere hne
    · have hblob : changed.blob .property place 2 = metadata.blob .property place 2 :=
        h.blob_eq .property hhere
      refine .of_eq ?_ fun _ _ => rfl
      rw [propertyTypes, hblob]
      rfl
  case method =>
    intro names place
    by_cases hhere : member = .method ∧ place = row
    · obtain ⟨rfl, rfl⟩ := hhere
      obtain ⟨types, htypes⟩ := exists_methodTypes hopened hfit names place
      refine fun before _ => ⟨types, htypes, fun range hrange named hnamed => ?_⟩
      rw [← hsame.nameParameters] at hnamed
      rw [← hsame.listRange (by decide)] at hrange
      suffices hrenamed : ∃ renamed, changed.nameParameters types.2
          (List.range' range.1 (range.2 - range.1)) = .ok renamed from
        hrenamed.imp fun renamed hread => ⟨hread, fun hne => absurd ⟨rfl, rfl⟩ hne⟩
      refine exists_nameParameters hnamed ?_
      intro pointer hpointer row sequence hrow hsequence hone hlast
      rcases length_methodTypes htypes with hnone | ⟨signature, hsignature, hlength⟩
      · rw [hnone, List.length_nil] at hlast
        omega
      · exact hnames rfl signature hsignature range hrange pointer hpointer row sequence hrow
          hsequence hone (hlength ▸ hlast)
    · have hblob : changed.blob .methodDef place 4 = metadata.blob .methodDef place 4 :=
        h.blob_eq .method hhere
      have htypes : changed.methodTypes scope names place =
          metadata.methodTypes scope names place := by
        rw [methodTypes, hblob]
        rfl
      refine .of_eq htypes fun types range _ => .of_eq (hsame.nameParameters _ _) fun _ _ => rfl

end ImageMetadata

/-- Wherever the index of a signature leads, the image loads if it did before, and the module is
the same except for the types of that one member; where the index leads to the signature of a
method, the names of its parameters must be there. -/
theorem CodeModule.damaged_signatures_contained {name : String} {data changed : Bytes}
    {metadata other : ImageMetadata} {member : SignedMember} {row index : Nat} {m : CodeModule}
    (hmetadata : ImageMetadata.ofBytes data = .ok metadata)
    (hother : ImageMetadata.ofBytes changed = .ok other)
    (hredirected : metadata.Redirected other member.table row member.column index)
    (hnames : member = .method → other.ParametersNamed row)
    (hloads : CodeModule.ofBytes name data = .ok m) :
    ∃ after, CodeModule.ofBytes name changed = .ok after ∧ m.ResignedAt member row after := by
  have hsame := hredirected.sameButSignatures member.signatureColumn?_table
  have hconstructed : other.constructed = metadata.constructed := by
    unfold ImageMetadata.constructed
    rw [hsame.rows]
    refine congrArg (List.mapM · _) (funext fun place => ?_)
    exact hredirected.blob (by decide) place fun heq => by cases member <;> cases heq
  rw [CodeModule.ofBytes_eq, hmetadata, Outcome.ok_bind] at hloads
  obtain ⟨after, hafter, hwithin⟩ : ∃ after, other.toModule name = .ok after ∧
      (Leeway.only member row).Within m after := hsame.toModule
    (fun blobs hblobs => ⟨blobs, hconstructed.trans hblobs, fun definitions references =>
      hredirected.parallel (ImageMetadata.opened_of_ofBytes hother) hnames
        (ImageMetadata.signaturesFit_of_constructed (ImageMetadata.opened_of_ofBytes hmetadata)
          hblobs definitions references)⟩) name m hloads
  refine ⟨after, ?_, hwithin.resignedAt hredirected.row_bounds.1⟩
  rw [CodeModule.ofBytes_eq, hother, Outcome.ok_bind, hafter]

/-!
## A row that names no parameter
-/

section Sample

/-- A type with a method that has no parameters, and a row that numbers a parameter of it and says
that its name stands where there are no names. -/
def strayDraft : ImageDraft where
  strings := [0]
  blobs := [0, 3, 0x00, 0x00, 0x01, 6, 0x00, 0x01, 0x12, 0x24, 0x12, 0x24]
  rows
    | .typeDef => [[0, 0, 0, 0, 1, 1]]
    | .methodDef => [[0, 0, 0, 0, 1, 1]]
    | .param => [[0, 1, 0xFFFF]]
    | _ => []
  mvid := Vector.replicate 16 0
  entryPoint := 0

theorem strayDraft_fits : strayDraft.Fits := .of_all (by decide +kernel) (by decide +kernel)

/-- The image, loaded from its rows and heaps. -/
theorem strayDraft_loads : ∃ m, CodeModule.ofBytes "" strayDraft.bytes.toArray = .ok m ∧
    m.types.size = 1 := by
  have hloads : ((TableStream.decode strayDraft.tableStream.toArray).map
      (strayDraft.opened strayDraft.headers) >>= (·.toModule "")).toOption.any
        (·.types.size == 1) = true := by
    decide +kernel
  obtain ⟨m, hm, hsize⟩ := Outcome.exists_of_any hloads
  refine ⟨m, ?_, beq_iff_eq.mp hsize⟩
  rw [CodeModule.ofBytes_eq, ImageDraft.ofBytes_eq strayDraft_fits, hm]

/-- An index beyond the blobs. -/
theorem damaged_signatures_contained_beyond_blobs :
    ∃ metadata other m after,
      ImageMetadata.ofBytes strayDraft.bytes.toArray = .ok metadata ∧
      ImageMetadata.ofBytes (strayDraft.redirect .methodDef 1 4 0xFFFF).bytes.toArray = .ok other ∧
      metadata.Redirected other .methodDef 1 4 0xFFFF ∧ other.ParametersNamed 1 ∧
      CodeModule.ofBytes "" strayDraft.bytes.toArray = .ok m ∧
      CodeModule.ofBytes "" (strayDraft.redirect .methodDef 1 4 0xFFFF).bytes.toArray = .ok after ∧
      m.ResignedAt .method 1 after := by
  obtain ⟨metadata, other, hmetadata, hother, holds, -, hredirected⟩ :=
    ImageDraft.exists_redirected strayDraft_fits
      (show (strayDraft.redirect .methodDef 1 4 0xFFFF).Fits from
        .of_all (by decide +kernel) (by decide +kernel)) (by decide : 1 ≤ 1)
      (by decide : 1 ≤ (strayDraft.rows .methodDef).length) (by decide : 4 < 6) rfl
  obtain ⟨m, hm, -⟩ := strayDraft_loads
  have hnames : other.ParametersNamed 1 := by
    intro signature hsignature
    rw [hredirected.blob_cell, holds.blobs] at hsignature
    cases hsignature
  obtain ⟨after, hafter, hresigned⟩ : ∃ after,
      CodeModule.ofBytes "" (strayDraft.redirect .methodDef 1 4 0xFFFF).bytes.toArray = .ok after ∧
        m.ResignedAt .method 1 after :=
    CodeModule.damaged_signatures_contained hmetadata hother hredirected (fun _ => hnames) hm
  exact ⟨metadata, other, m, after, hmetadata, hother, hredirected, hnames, hm, hafter, hresigned⟩

/-- The index of a signature whose types are all missing, with a parameter whose name is missing:
the image loads with the one signature, and not with the other. -/
theorem missing_types_and_missing_name :
    ∃ metadata other m signature,
      ImageMetadata.ofBytes strayDraft.bytes.toArray = .ok metadata ∧
      ImageMetadata.ofBytes (strayDraft.redirect .methodDef 1 4 5).bytes.toArray = .ok other ∧
      metadata.Redirected other .methodDef 1 4 5 ∧
      CodeModule.ofBytes "" strayDraft.bytes.toArray = .ok m ∧ m.types.size = 1 ∧
      (other.blob .methodDef 1 4).bind Signature.method.parse = .ok signature ∧
      (∀ type ∈ signature.result :: signature.parameters,
        type = .classType (TableId.typeDef.token 9)) ∧
      ∀ after, CodeModule.ofBytes "" (strayDraft.redirect .methodDef 1 4 5).bytes.toArray ≠
        .ok after := by
  have hfits : (strayDraft.redirect .methodDef 1 4 5).Fits :=
    .of_all (by decide +kernel) (by decide +kernel)
  obtain ⟨metadata, other, hmetadata, hother, holds, -, hredirected⟩ :=
    ImageDraft.exists_redirected strayDraft_fits hfits (by decide : 1 ≤ 1)
      (by decide : 1 ≤ (strayDraft.rows .methodDef).length) (by decide : 4 < 6) rfl
  obtain ⟨m, hm, hsize⟩ := strayDraft_loads
  have hrefused : ((TableStream.decode
      (strayDraft.redirect .methodDef 1 4 5).tableStream.toArray).map
        ((strayDraft.redirect .methodDef 1 4 5).opened
          (strayDraft.redirect .methodDef 1 4 5).headers) >>= (·.toModule "")).toOption.isSome =
            false := by
    decide +kernel
  refine ⟨metadata, other, m, ⟨{}, 0, .classType (TableId.typeDef.token 9),
    [.classType (TableId.typeDef.token 9)]⟩, hmetadata, hother, hredirected, hm, hsize, ?_, ?_, ?_⟩
  · rw [hredirected.blob_cell, holds.blobs]
    rfl
  · simp
  · intro after hafter
    rw [CodeModule.ofBytes_eq, ImageDraft.ofBytes_eq hfits] at hafter
    rw [hafter] at hrefused
    cases hrefused

end Sample
end AssemblyBrowser
