import AssemblyBrowser.Proofs.Containment.TypeSpecs
import AssemblyBrowser.Proofs.TypeNesting

/-!
# Damaged constructed types

When the index of a constructed type leads elsewhere, the image still loads as long as
something can be read there. Then only the types that refer to the constructed type
may differ, and if what is read there is no signature, all of these are placeholders.
An index where nothing can be read makes the whole image unreadable.
-/

namespace AssemblyBrowser
namespace ImageMetadata

/-!
## What refers to a constructed type
-/

section

variable (metadata : ImageMetadata) (row : Nat)

/-- The base type of the type in a row refers to the constructed type. -/
def BaseRefers (place : Nat) : Prop :=
  ∃ token, metadata.tables.coded .typeDef place 3 .typeDefOrRef = .ok token ∧
    metadata.RefersTo row token

/-- An interface of the type in a row refers to the constructed type. -/
def InterfaceRefers (place number : Nat) : Prop :=
  ∃ implementations token, metadata.implementations = .ok implementations ∧
    ((implementations.filter (·.1 == place)).map Prod.snd)[number]? = some token ∧
      metadata.RefersTo row token

/-- The type of the event in a row refers to the constructed type. -/
def EventRefers (place : Nat) : Prop :=
  ∃ token, metadata.tables.coded .event place 2 .typeDefOrRef = .ok token ∧
    metadata.RefersTo row token

/-- A part of a signature refers to the constructed type. -/
def PartRefers {α : Type} (signature : Except Error α) (part : α → Option TypeSignature) : Prop :=
  ∃ whole type, signature = .ok whole ∧ part whole = some type ∧ metadata.Mentions row type

end

end ImageMetadata

/-- Parameters of the same name, whose types may differ as far as they may at their place. -/
def ParametersAlike (types : Nat → TypeExpr → TypeExpr → Prop) (number : Nat)
    (before after : Parameter) : Prop :=
  after.name = before.name ∧ types number before.type after.type

namespace Leeway

/-- Only what refers to the constructed type of a row may differ, and it has become a placeholder if
there is damage. The kind of a type depends on its base type. -/
def referring (metadata : ImageMetadata) (row : Nat) (damaged : Prop) : Leeway where
  lineage place before after :=
    Option.Rel (Follows (metadata.BaseRefers row place) damaged) before.1 after.1 ∧
      Itemwise (fun number => Follows (metadata.InterfaceRefers row place number) damaged)
        before.2.1 after.2.1 ∧
      (after.1 = before.1 → after.2.2 = before.2.2)
  field place :=
    Follows (metadata.PartRefers row (metadata.fieldSignature place) some) damaged
  method place before after :=
    Follows (metadata.PartRefers row (metadata.methodSignature place) (some ·.result)) damaged
        before.1 after.1 ∧
      Itemwise (ParametersAlike fun number => Follows
        (metadata.PartRefers row (metadata.methodSignature place) (·.parameters[number]?)) damaged)
        before.2 after.2
  property place before after :=
    Follows (metadata.PartRefers row (metadata.propertySignature place) (some ·.type)) damaged
        before.1 after.1 ∧
      Itemwise (fun number => Follows
        (metadata.PartRefers row (metadata.propertySignature place) (·.parameters[number]?))
          damaged)
        before.2 after.2
  event place := Follows (metadata.EventRefers row place) damaged

end Leeway

namespace ImageMetadata

/-!
## Reading side by side
-/

/-- Parameters are named side by side. -/
theorem simulates_nameParameters (metadata : ImageMetadata)
    {types : Nat → TypeExpr → TypeExpr → Prop} {before after : List Parameter}
    (h : Itemwise (ParametersAlike types) before after) (pointers : List Nat) :
    Simulates (Itemwise (ParametersAlike types)) (metadata.nameParameters before pointers)
      (metadata.nameParameters after pointers) := by
  induction pointers generalizing before after with
  | nil => exact Simulates.pure h
  | cons pointer rest ih =>
      rw [nameParameters, nameParameters]
      refine Simulates.bind_same rfl fun row _ => ?_
      split
      · exact ih h
      · refine Simulates.bind_same rfl fun sequence _ => ?_
        rw [h.1]
        split
        · exact ih h
        · refine Simulates.bind_same rfl fun name _ => ?_
          exact ih (h.modify fun _ _ _ hxy => ⟨rfl, hxy.2⟩)

section

variable {metadata changed : ImageMetadata} {row : Nat}
  {definitions references : Array TypeName} {blobs others : Array Bytes}
  (hscope : metadata.Scopes ⟨definitions, references, blobs⟩)
  (hother : changed.Scopes ⟨definitions, references, others⟩)
  (hblob : ∀ place, place ≠ row →
    changed.blob .typeSpec place 0 = metadata.blob .typeSpec place 0)
  (hfit : TypeScope.SignaturesFit ⟨definitions, references, others⟩)

include hscope hother hblob hfit

theorem simulates_typeWithSupertypes (m : CodeModule) {implementations : List (Nat × Token)}
    (himplementations : metadata.implementations = .ok implementations) {place : Nat}
    (type : TypeDefinition) {before after : Option TypeExpr}
    (hbase : Option.Rel (Follows (metadata.BaseRefers row place) (changed.Damaged row))
      before after) :
    Simulates ((Leeway.referring metadata row (changed.Damaged row)).Types place)
      (typeWithSupertypes ⟨definitions, references, blobs⟩ m type before
        ((implementations.filter (·.1 == place)).map Prod.snd))
      (typeWithSupertypes ⟨definitions, references, others⟩ m type after
        ((implementations.filter (·.1 == place)).map Prod.snd)) := by
  unfold typeWithSupertypes
  have hinterfaces : Simulates
      (Itemwise fun number =>
        Follows (metadata.InterfaceRefers row place number) (changed.Damaged row))
      (((implementations.filter (·.1 == place)).map Prod.snd).mapM
        ((TypeScope.mk definitions references blobs).tokenOrObject
          { ofType := type.genericParameters }))
      (((implementations.filter (·.1 == place)).map Prod.snd).mapM
        ((TypeScope.mk definitions references others).tokenOrObject
          { ofType := type.genericParameters })) := by
    refine Simulates.mapM fun number token htoken => ?_
    refine (simulates_tokenOrObject hscope hother hblob hfit _ token).mono fun _ _ hfollows =>
      hfollows.congr
        ⟨fun hrefers => ⟨implementations, token, himplementations, htoken, hrefers⟩, ?_⟩
    rintro ⟨found, named, hfound, hnamed, hrefers⟩
    cases hfound.symm.trans himplementations
    cases hnamed.symm.trans htoken
    exact hrefers
  refine hinterfaces.bind fun interfaces implemented hitems => ?_
  refine Simulates.pure ⟨rfl, hbase, hitems, fun hsame => ?_⟩
  have hsame : after = before := hsame
  rw [hsame]
  rfl

theorem simulates_typeWithHierarchy (m : CodeModule) {implementations : List (Nat × Token)}
    (himplementations : metadata.implementations = .ok implementations) (place : Nat) :
    Simulates ((Leeway.referring metadata row (changed.Damaged row)).Types place)
      (metadata.typeWithHierarchy ⟨definitions, references, blobs⟩ m implementations place)
      (metadata.typeWithHierarchy ⟨definitions, references, others⟩ m implementations place) := by
  unfold typeWithHierarchy
  refine Simulates.bind_same rfl fun index _ => ?_
  refine Simulates.bind_same rfl fun extended hextended => ?_
  refine Simulates.bind_same rfl fun type _ => ?_
  dsimp only
  split
  · exact simulates_typeWithSupertypes hscope hother hblob hfit m himplementations type .none
  · refine (simulates_tokenOrObject hscope hother hblob hfit _ extended).bind
      fun before after hbase => ?_
    refine simulates_typeWithSupertypes hscope hother hblob hfit m himplementations type
      (.some (hbase.congr ⟨fun hrefers => ⟨extended, hextended, hrefers⟩, ?_⟩))
    rintro ⟨token, htoken, hrefers⟩
    cases htoken.symm.trans hextended
    exact hrefers

/-- The types in a part of a signature that can be read. -/
theorem simulates_part (generics : GenericNames) {α : Type} {signature : Except Error α} {whole : α}
    (hwhole : signature = .ok whole) (part : α → Option TypeSignature) {type : TypeSignature}
    (hpart : part whole = some type) :
    Simulates (Follows (metadata.PartRefers row signature part) (changed.Damaged row))
      ((TypeScope.mk definitions references blobs).signatureOrObject generics (.ok type))
      ((TypeScope.mk definitions references others).signatureOrObject generics (.ok type)) := by
  have hanswers : Answers (fun _ => True) (Except.ok type : Except Error TypeSignature) := trivial
  refine (simulates_signatureOrObject hscope hother hblob hfit generics hanswers).mono
    fun _ _ hfollows => hfollows.congr ⟨?_, ?_⟩
  · rintro ⟨_, heq, hmentions⟩
    cases heq
    exact ⟨whole, type, hwhole, hpart, hmentions⟩
  · rintro ⟨other, inner, hother, hinner, hmentions⟩
    cases hother.symm.trans hwhole
    cases hinner.symm.trans hpart
    exact ⟨type, rfl, hmentions⟩

/-- The types of methods, before their parameters are named. -/
theorem simulates_methodTypes (generics : GenericNames) {place : Nat}
    (hsame : changed.blob .methodDef place 4 = metadata.blob .methodDef place 4) :
    Simulates ((Leeway.referring metadata row (changed.Damaged row)).method place)
      (metadata.methodTypes ⟨definitions, references, blobs⟩ generics place)
      (changed.methodTypes ⟨definitions, references, others⟩ generics place) := by
  unfold methodTypes
  rw [hsame]
  refine Simulates.bind_same rfl fun signature? hattempt => ?_
  cases signature? with
  | none =>
      have hnone {part : MethodSignature → Option TypeSignature} :
          ¬ metadata.PartRefers row (metadata.methodSignature place) part := by
        rintro ⟨whole, _, hwhole, -⟩
        unfold methodSignature at hwhole
        rw [hwhole] at hattempt
        cases hattempt
      exact Simulates.pure ⟨Follows.same hnone _, rfl, fun _ _ _ hx => by simp at hx⟩
  | some signature =>
      have hwhole : metadata.methodSignature place = .ok signature :=
        Answers.eq_ok_of_attempt hattempt
      refine (simulates_part hscope hother hblob hfit generics hwhole
        (some ·.result) rfl).bind fun result returned hresult => ?_
      refine (Simulates.mapM (R := ParametersAlike fun number => Follows
        (metadata.PartRefers row (metadata.methodSignature place) (·.parameters[number]?))
        (changed.Damaged row)) fun number type htype => ?_).bind
          fun _ _ hitems => Simulates.pure ⟨hresult, hitems⟩
      exact (simulates_part hscope hother hblob hfit generics hwhole (·.parameters[number]?)
        htype).bind fun _ _ hfollows => Simulates.pure ⟨rfl, hfollows⟩

/-- The types of properties and of their parameters. -/
theorem simulates_propertyTypes (generics : GenericNames) {place : Nat}
    (hsame : changed.blob .property place 2 = metadata.blob .property place 2) :
    Simulates ((Leeway.referring metadata row (changed.Damaged row)).property place)
      (metadata.propertyTypes ⟨definitions, references, blobs⟩ generics place)
      (changed.propertyTypes ⟨definitions, references, others⟩ generics place) := by
  unfold propertyTypes
  rw [hsame]
  refine Simulates.bind_same rfl fun signature? hattempt => ?_
  cases signature? with
  | none =>
      have hnone {part : PropertySignature → Option TypeSignature} :
          ¬ metadata.PartRefers row (metadata.propertySignature place) part := by
        rintro ⟨whole, _, hwhole, -⟩
        unfold propertySignature at hwhole
        rw [hwhole] at hattempt
        cases hattempt
      exact Simulates.pure ⟨Follows.same hnone _, rfl, fun _ _ _ hx => by simp at hx⟩
  | some signature =>
      have hwhole : metadata.propertySignature place = .ok signature :=
        Answers.eq_ok_of_attempt hattempt
      refine (simulates_part hscope hother hblob hfit generics hwhole
        (some ·.type) rfl).bind fun type shown htype => ?_
      have hparameters := Simulates.mapM fun number type htype =>
        simulates_part hscope hother hblob hfit generics hwhole (·.parameters[number]?) htype
      exact hparameters.bind fun _ _ hitems => Simulates.pure ⟨htype, hitems⟩

end

/-- A token without a row refers to nothing. -/
theorem not_refersTo_of_isNull {metadata : ImageMetadata} {row : Nat} (hrow : 1 ≤ row)
    {token : Token} (hnull : token.isNull = true) : ¬ metadata.RefersTo row token := by
  have hzero : token.row = 0 := beq_iff_eq.mp hnull
  intro hrefers
  cases hrefers with
  | itself htable heq => omega
  | through htable hsignature hinner hinside =>
      rw [blob, value_of_no_row (.inl hzero)] at hsignature
      cases hsignature

/-- Two images that differ in the index of a constructed type that can be read. -/
theorem Redirected.parallel_referring {metadata changed : ImageMetadata} {row index : Nat}
    (h : metadata.Redirected changed .typeSpec row 0 index) (hopened : metadata.Opened)
    (hchanged : changed.Opened) {blobs others : List Bytes}
    (hblobs : metadata.constructed = .ok blobs) (hothers : changed.constructed = .ok others)
    (definitions references : Array TypeName) :
    Parallel (Leeway.referring metadata row (changed.Damaged row)) metadata changed
      ⟨definitions, references, blobs.toArray⟩ ⟨definitions, references, others.toArray⟩ := by
  have hsame := h.sameButSignatures rfl
  have hscope := scopes_of_constructed hblobs definitions references
  have hother := scopes_of_constructed hothers definitions references
  have hfit := signaturesFit_of_constructed hchanged hothers definitions references
  have hblob : ∀ place, place ≠ row →
      changed.blob .typeSpec place 0 = metadata.blob .typeSpec place 0 := by
    intro place hne
    refine h.blob (by decide) place fun heq => hne ?_
    exact (Prod.mk.inj (Prod.mk.inj heq).2).1
  have helsewhere {table : TableId} {column : Nat} (hcolumn : column < table.columns.length)
      (htable : table ≠ .typeSpec) (place : Nat) :
      changed.blob table place column = metadata.blob table place column :=
    h.blob hcolumn place fun heq => htable (Prod.mk.inj heq).1
  constructor
  case same => exact hsame
  case type =>
    intro m implementations himplementations place
    rw [hsame.typeWithHierarchy]
    exact simulates_typeWithHierarchy hscope hother hblob hfit m himplementations place
  case field =>
    intro names place
    rw [helsewhere (by decide) (by decide)]
    refine (simulates_signatureOrObject hscope hother hblob hfit names
      (answers_signature hopened Signature.safe_field .field place 2)).mono
        fun _ _ hfollows => hfollows.congr ⟨?_, ?_⟩
    · rintro ⟨type, htype, hmentions⟩
      exact ⟨type, type, htype, rfl, hmentions⟩
    · rintro ⟨whole, type, hwhole, htype, hmentions⟩
      cases htype
      exact ⟨whole, hwhole, hmentions⟩
  case method =>
    intro names place
    refine (simulates_methodTypes hscope hother hblob hfit names
      (helsewhere (by decide) (by decide) place)).mono fun before after htypes range _ => ?_
    have hnames : changed.nameParameters = metadata.nameParameters :=
      funext fun parameters => funext fun pointers => hsame.nameParameters parameters pointers
    rw [hnames]
    exact (metadata.simulates_nameParameters htypes.2 _).mono fun _ _ hitems => ⟨htypes.1, hitems⟩
  case property =>
    intro names place
    exact simulates_propertyTypes hscope hother hblob hfit names
      (helsewhere (by decide) (by decide) place)
  case event =>
    intro place handler hhandler
    unfold handlerType
    split
    case isTrue hnull =>
      refine Simulates.pure (Follows.same ?_ _)
      rintro ⟨token, htoken, hrefers⟩
      cases htoken.symm.trans hhandler
      exact not_refersTo_of_isNull h.row_bounds.1 hnull hrefers
    case isFalse =>
      refine (simulates_tokenOrObject hscope hother hblob hfit _ handler).mono
        fun _ _ hfollows => hfollows.congr ⟨fun hrefers => ⟨handler, hhandler, hrefers⟩, ?_⟩
      rintro ⟨token, htoken, hrefers⟩
      cases htoken.symm.trans hhandler
      exact hrefers

/-- A module that loads has constructed types that can be read. -/
theorem exists_constructed {metadata : ImageMetadata} {name : String} {m : CodeModule}
    (h : metadata.toModule name = .ok m) : ∃ blobs, metadata.constructed = .ok blobs := by
  obtain ⟨scope, start, _, _, _, _, _, _, _, _, _, _, _, _, _, _, _, _, hblobs, _⟩ :=
    toModule_passes h
  exact ⟨_, hblobs⟩

/-- The constructed types can all be read if the one with another index can. -/
theorem Redirected.exists_constructed_iff {metadata changed : ImageMetadata} {row index : Nat}
    (h : metadata.Redirected changed .typeSpec row 0 index) {blobs : List Bytes}
    (hblobs : metadata.constructed = .ok blobs) :
    (∃ others, changed.constructed = .ok others) ↔
      ∃ blob, Heap.blob metadata.blobs index = .ok blob := by
  have hrows := Outcome.exists_mapM_eq_ok.mp ⟨blobs, hblobs⟩
  have hmem : row ∈ metadata.rows .typeSpec := mem_rows.mpr h.row_bounds
  unfold constructed
  rw [Outcome.exists_mapM_eq_ok, (h.sameButSignatures rfl).rows, ← h.blob_cell]
  refine ⟨fun hall => hall row hmem, fun hread place hplace => ?_⟩
  by_cases heq : place = row
  · rw [heq]
    exact hread
  · rw [h.blob (by decide) place fun hsame => heq (Prod.mk.inj (Prod.mk.inj hsame).2).1]
    exact hrows place hplace

end ImageMetadata

/-- An image with another index for a constructed type loads exactly if something can be read at
that index. Then the module is the same, except for the types that refer to the constructed type,
directly or through others; if what is read is no signature, these have become placeholders. -/
theorem CodeModule.damaged_constructed_type_contained_iff {name : String} {data changed : Bytes}
    {metadata other : ImageMetadata} {row index : Nat} {m : CodeModule}
    (hmetadata : ImageMetadata.ofBytes data = .ok metadata)
    (hother : ImageMetadata.ofBytes changed = .ok other)
    (hredirected : metadata.Redirected other .typeSpec row 0 index)
    (hloads : CodeModule.ofBytes name data = .ok m) :
    ((∃ after, CodeModule.ofBytes name changed = .ok after) ↔
        ∃ blob, Heap.blob metadata.blobs index = .ok blob) ∧
      ∀ after, CodeModule.ofBytes name changed = .ok after →
        (Leeway.referring metadata row (other.Damaged row)).Within m after := by
  rw [CodeModule.ofBytes_eq, hmetadata, Outcome.ok_bind] at hloads
  rw [CodeModule.ofBytes_eq, hother, Outcome.ok_bind]
  obtain ⟨blobs, hblobs⟩ := ImageMetadata.exists_constructed hloads
  have hsame := hredirected.sameButSignatures rfl
  have hcontained {others : List Bytes} (hothers : other.constructed = .ok others) :
      ∃ after, other.toModule name = .ok after ∧
        (Leeway.referring metadata row (other.Damaged row)).Within m after := by
    refine hsame.toModule (fun read hread => ⟨others, hothers, fun definitions references => ?_⟩)
      name m hloads
    exact hredirected.parallel_referring (ImageMetadata.opened_of_ofBytes hmetadata)
      (ImageMetadata.opened_of_ofBytes hother) hread hothers definitions references
  rw [← hredirected.exists_constructed_iff hblobs]
  refine ⟨⟨?_, ?_⟩, fun after hafter => ?_⟩
  · rintro ⟨after, hafter⟩
    exact ImageMetadata.exists_constructed hafter
  · rintro ⟨others, hothers⟩
    obtain ⟨after, hafter, -⟩ := hcontained hothers
    exact ⟨after, hafter⟩
  · obtain ⟨others, hothers⟩ := ImageMetadata.exists_constructed hafter
    obtain ⟨found, hfound, hwithin⟩ := hcontained hothers
    cases hfound.symm.trans hafter
    exact hwithin

/-!
## A field of a constructed type
-/

section Sample

/-- A type with a field whose type is a constructed one, vectors of numbers, and a blob that is no
signature. -/
def vectorDraft : ImageDraft where
  strings := [0]
  blobs := [0, 2, 0x1D, 0x08, 3, 0x06, 0x12, 0x06, 1, 0xFF]
  rows
    | .typeDef => [[0, 0, 0, 0, 1, 1]]
    | .field => [[0, 0, 4]]
    | .typeSpec => [[1]]
    | _ => []
  mvid := Vector.replicate 16 0
  entryPoint := 0

theorem vectorDraft_fits : vectorDraft.Fits := .of_all (by decide +kernel) (by decide +kernel)

/-- The image, loaded from its rows and heaps. -/
theorem vectorDraft_loads : ∃ m, CodeModule.ofBytes "" vectorDraft.bytes.toArray = .ok m ∧
    m.fields.map (·.type.text) = #["int[]"] := by
  have hloads : ((TableStream.decode vectorDraft.tableStream.toArray).map
      (vectorDraft.opened vectorDraft.headers) >>= (·.toModule "")).toOption.any
        (·.fields.map (·.type.text) == #["int[]"]) = true := by
    decide +kernel
  obtain ⟨m, hm, hfields⟩ := Outcome.exists_of_any hloads
  refine ⟨m, ?_, beq_iff_eq.mp hfields⟩
  rw [CodeModule.ofBytes_eq, ImageDraft.ofBytes_eq vectorDraft_fits, hm]

/-- The images that differ from it in the index of the constructed type. -/
theorem vectorDraft_redirected {index : Nat}
    (hfits : (vectorDraft.redirect .typeSpec 1 0 index).Fits) :
    ∃ metadata other, ImageMetadata.ofBytes vectorDraft.bytes.toArray = .ok metadata ∧
      ImageMetadata.ofBytes (vectorDraft.redirect .typeSpec 1 0 index).bytes.toArray = .ok other ∧
      metadata.blobs = (padded 4 vectorDraft.blobs).toArray ∧
      metadata.Redirected other .typeSpec 1 0 index := by
  obtain ⟨metadata, other, hmetadata, hother, holds, -, hredirected⟩ :=
    ImageDraft.exists_redirected vectorDraft_fits hfits (by decide : 1 ≤ 1)
      (by decide : 1 ≤ (vectorDraft.rows .typeSpec).length) (by decide : 0 < 1) rfl
  exact ⟨metadata, other, hmetadata, hother, holds.blobs, hredirected⟩

/-- The index of a blob that is no signature: a placeholder takes the place of the field's type. -/
theorem damaged_constructed_type_contained_no_signature :
    ∃ metadata other m after,
      ImageMetadata.ofBytes vectorDraft.bytes.toArray = .ok metadata ∧
      ImageMetadata.ofBytes (vectorDraft.redirect .typeSpec 1 0 8).bytes.toArray = .ok other ∧
      metadata.Redirected other .typeSpec 1 0 8 ∧ other.Damaged 1 ∧
      CodeModule.ofBytes "" vectorDraft.bytes.toArray = .ok m ∧
      CodeModule.ofBytes "" (vectorDraft.redirect .typeSpec 1 0 8).bytes.toArray = .ok after ∧
      (Leeway.referring metadata 1 (other.Damaged 1)).Within m after := by
  have hfits : (vectorDraft.redirect .typeSpec 1 0 8).Fits :=
    .of_all (by decide +kernel) (by decide +kernel)
  obtain ⟨metadata, other, hmetadata, hother, hblobs, hredirected⟩ := vectorDraft_redirected hfits
  obtain ⟨m, hm, -⟩ := vectorDraft_loads
  have hdamaged : other.Damaged 1 := by
    intro signature hsignature
    rw [hredirected.blob_cell, hblobs] at hsignature
    cases hsignature
  obtain ⟨hiff, hwithin⟩ :=
    CodeModule.damaged_constructed_type_contained_iff hmetadata hother hredirected hm
  obtain ⟨after, hafter⟩ := hiff.mpr ⟨#[0xFF], by rw [hblobs]; rfl⟩
  exact ⟨metadata, other, m, after, hmetadata, hother, hredirected, hdamaged, hm, hafter,
    hwithin after hafter⟩

/-- An index beyond the blobs: the image is refused, although it loads with the other index and
nothing but the type of one field refers to the constructed type. -/
theorem unreadable_constructed_type_refused :
    ∃ metadata other m,
      ImageMetadata.ofBytes vectorDraft.bytes.toArray = .ok metadata ∧
      ImageMetadata.ofBytes (vectorDraft.redirect .typeSpec 1 0 0xFFFF).bytes.toArray = .ok other ∧
      metadata.Redirected other .typeSpec 1 0 0xFFFF ∧ other.Damaged 1 ∧
      CodeModule.ofBytes "" vectorDraft.bytes.toArray = .ok m ∧
      m.fields.map (·.type.text) = #["int[]"] ∧
      ∀ after, CodeModule.ofBytes "" (vectorDraft.redirect .typeSpec 1 0 0xFFFF).bytes.toArray ≠
        .ok after := by
  have hfits : (vectorDraft.redirect .typeSpec 1 0 0xFFFF).Fits :=
    .of_all (by decide +kernel) (by decide +kernel)
  obtain ⟨metadata, other, hmetadata, hother, hblobs, hredirected⟩ := vectorDraft_redirected hfits
  obtain ⟨m, hm, hfields⟩ := vectorDraft_loads
  have hdamaged : other.Damaged 1 := by
    intro signature hsignature
    rw [hredirected.blob_cell, hblobs] at hsignature
    cases hsignature
  have hrefused : ((TableStream.decode
      (vectorDraft.redirect .typeSpec 1 0 0xFFFF).tableStream.toArray).map
        ((vectorDraft.redirect .typeSpec 1 0 0xFFFF).opened
          (vectorDraft.redirect .typeSpec 1 0 0xFFFF).headers) >>=
            (·.toModule "")).toOption.isSome = false := by
    decide +kernel
  refine ⟨metadata, other, m, hmetadata, hother, hredirected, hdamaged, hm, hfields, ?_⟩
  intro after hafter
  rw [CodeModule.ofBytes_eq, ImageDraft.ofBytes_eq hfits] at hafter
  rw [hafter] at hrefused
  cases hrefused

end Sample
end AssemblyBrowser
