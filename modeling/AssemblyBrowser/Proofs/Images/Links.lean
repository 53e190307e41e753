import AssemblyBrowser.Proofs.Images.Members

/-!
# Accessors and values are read back

Two tables add to members that have been read. Rows for accessors give methods
their roles and properties their getters and setters; rows for constants give
fields their values. Every row changes one member or two, and the rows of a
description do not contradict one another, so their order does not matter except
for a method with several roles: it keeps the last of them.
-/

namespace AssemblyBrowser

/-!
## Accessors
-/

/-- The accessor that a property has for a role. -/
def PropertyDraft.accessor? (property : PropertyDraft) : AccessorRole → Option Nat
  | .getter => property.getter
  | .setter => property.setter
  | _ => none

namespace ModuleDraft

variable {module : ModuleDraft} {accessors : List AccessorDraft}

theorem mem_accessors {accessor : AccessorDraft} : accessor ∈ module.accessors ↔
    ∃ property, itemAt? module.properties accessor.property = some property ∧
      property.2.accessor? accessor.role = some accessor.method := by
  unfold accessors
  rw [List.mem_flatMap]
  constructor
  · rintro ⟨⟨⟨owner, property⟩, row⟩, hproperty, hmem⟩
    have hat := mem_numbered.mp hproperty
    dsimp only [PropertyDraft.accessors] at hmem
    rcases List.mem_append.mp hmem with h | h <;>
      (obtain ⟨method, hmethod, rfl⟩ := Option.map_eq_some_iff.mp (Option.mem_toList.mp h)
       exact ⟨(owner, property), hat, hmethod⟩)
  · rintro ⟨property, hat, hmethod⟩
    refine ⟨(property, accessor.property), mem_numbered.mpr hat, ?_⟩
    dsimp only [PropertyDraft.accessors]
    obtain ⟨role, method, row⟩ := accessor
    cases role with
    | getter =>
        refine List.mem_append_left _ (Option.mem_toList.mpr ?_)
        exact Option.map_eq_some_iff.mpr ⟨method, hmethod, rfl⟩
    | setter =>
        refine List.mem_append_right _ (Option.mem_toList.mpr ?_)
        exact Option.map_eq_some_iff.mpr ⟨method, hmethod, rfl⟩
    | _ => cases hmethod

/-- The method that has been given to a property last for a role. -/
def givenAccessor? (accessors : List AccessorDraft) (role : AccessorRole) (property : Nat) :
    Option Nat :=
  (accessors.reverse.map fun accessor =>
    ((accessor.role, accessor.property), accessor.method)).lookup (role, property)

theorem givenAccessor?_snoc (accessors : List AccessorDraft) (last : AccessorDraft)
    (role : AccessorRole) (property : Nat) :
    givenAccessor? (accessors ++ [last]) role property =
      if last.role = role ∧ last.property = property then some last.method
      else givenAccessor? accessors role property := by
  unfold givenAccessor?
  rw [List.reverse_append, List.reverse_singleton, List.singleton_append, List.map_cons,
    List.lookup_cons]
  by_cases h : last.role = role ∧ last.property = property
  · rw [if_pos h, h.1, h.2, beq_self_eq_true]
  · have hne : ((role, property) == (last.role, last.property)) = false :=
      beq_eq_false_iff_ne.mpr fun heq => h (Prod.mk.inj heq.symm)
    rw [if_neg h, hne]

theorem roleOf_snoc (accessors : List AccessorDraft) (last : AccessorDraft) (method : Nat) :
    roleOf (accessors ++ [last]) method =
      if last.method = method then some last.role else roleOf accessors method := by
  unfold roleOf
  rw [List.reverse_append, List.reverse_singleton, List.singleton_append, List.find?_cons]
  by_cases h : last.method = method
  · rw [if_pos h, beq_iff_eq.mpr h]
    rfl
  · rw [if_neg h, beq_eq_false_iff_ne.mpr h]

/-- When all accessors have been given, in any order, a property has its own. -/
theorem givenAccessor?_eq (hperm : accessors.Perm module.accessors) (role : AccessorRole)
    {property : Nat × PropertyDraft} {row : Nat}
    (hproperty : itemAt? module.properties row = some property) :
    givenAccessor? accessors role row = property.2.accessor? role := by
  refine lookup_eq fun method => ?_
  rw [List.mem_map]
  constructor
  · rintro ⟨accessor, hmem, heq⟩
    cases heq
    obtain ⟨other, hat, hmethod⟩ := mem_accessors.mp (hperm.mem_iff.mp (List.mem_reverse.mp hmem))
    cases Option.some.inj (hproperty.symm.trans hat)
    exact hmethod
  · intro hmethod
    refine ⟨⟨role, method, row⟩, List.mem_reverse.mpr (hperm.mem_iff.mpr ?_), rfl⟩
    exact mem_accessors.mpr ⟨property, hproperty, hmethod⟩

/-- A property with the accessors that it has been given. -/
def linkedProperty (module : ModuleDraft) (accessors : List AccessorDraft)
    (property : Nat × PropertyDraft) (row : Nat) : PropertyDefinition :=
  { module.plainProperty property row with
    getter := (givenAccessor? accessors .getter row).map TableId.methodDef.token
    setter := (givenAccessor? accessors .setter row).map TableId.methodDef.token }

def linkedProperties (module : ModuleDraft) (accessors : List AccessorDraft) :
    List PropertyDefinition :=
  (numbered module.properties).map fun (property, row) =>
    module.linkedProperty accessors property row

/-- A module with the accessors that have been given. -/
def withAccessors (module : ModuleDraft) (m : CodeModule) (accessors : List AccessorDraft) :
    CodeModule :=
  { m with
    methods := (module.shownMethods accessors).toArray
    properties := (module.linkedProperties accessors).toArray }

theorem withAccessors_nil {m : CodeModule} (hmethods : m.methods = module.plainMethods.toArray)
    (hproperties : m.properties = module.plainProperties.toArray) :
    module.withAccessors m [] = m := by
  have hmethodsSame : module.shownMethods [] = module.plainMethods := rfl
  have hpropertiesSame : module.linkedProperties [] = module.plainProperties := rfl
  rw [withAccessors, hmethodsSame, hpropertiesSame, ← hmethods, ← hproperties]

theorem linkedProperties_eq (hperm : accessors.Perm module.accessors) :
    module.linkedProperties accessors = module.shownProperties := by
  refine List.map_congr_left fun (property, row) hmem => ?_
  have hproperty := mem_numbered.mp hmem
  dsimp only [linkedProperty]
  rw [givenAccessor?_eq hperm .getter hproperty, givenAccessor?_eq hperm .setter hproperty]
  rfl

/-- An accessor names rows that there are. -/
structure Names (module : ModuleDraft) (accessor : AccessorDraft) : Prop where
  role : accessor.role = .getter ∨ accessor.role = .setter
  method : 1 ≤ accessor.method ∧ accessor.method ≤ module.methods.length
  property : 1 ≤ accessor.property ∧ accessor.property ≤ module.properties.length

theorem linkProperty_linkedProperty (accessors : List AccessorDraft) {accessor : AccessorDraft}
    (hrole : accessor.role = .getter ∨ accessor.role = .setter) (property : Nat × PropertyDraft)
    (row : Nat) :
    (if accessor.property = row then
        ImageMetadata.linkProperty (TableId.methodDef.token accessor.method) accessor.role
          (module.linkedProperty accessors property row)
      else module.linkedProperty accessors property row) =
        module.linkedProperty (accessors ++ [accessor]) property row := by
  unfold linkedProperty
  rw [givenAccessor?_snoc, givenAccessor?_snoc]
  by_cases hrow : accessor.property = row
  · rcases hrole with hrole | hrole <;> simp [hrow, hrole, ImageMetadata.linkProperty]
  · simp [hrow]

/-- A row for an accessor adds it to those that have been given. -/
theorem linkAccessor_withAccessors (m : CodeModule) (accessors : List AccessorDraft)
    {accessor : AccessorDraft} (hnames : module.Names accessor)
    (hmethods : module.methods.length < 0x1000000)
    (hproperties : module.properties.length < 0x1000000) :
    ImageMetadata.linkAccessor (module.withAccessors m accessors)
        (TableId.methodDef.token accessor.method) accessor.role
        (TableId.property.token accessor.property) =
      module.withAccessors m (accessors ++ [accessor]) := by
  have hmethod := hnames.method
  have hproperty := hnames.property
  have hmethodRow : (TableId.methodDef.token accessor.method).row = accessor.method :=
    Token.row_ofParts _ _ (by omega)
  have hpropertyRow : (TableId.property.token accessor.property).row = accessor.property :=
    Token.row_ofParts _ _ (by omega)
  have htable : (TableId.property.token accessor.property).table = TableId.property.number :=
    TableId.table_token _ _
  have hsize : (module.withAccessors m accessors).methods.size = module.methods.length := by
    rw [withAccessors, List.size_toArray, shownMethods, List.length_map, length_numbered]
  have hmethodsAfter : (module.shownMethods accessors).modify (accessor.method - 1)
      (fun method => { method with role := some accessor.role }) =
        module.shownMethods (accessors ++ [accessor]) := by
    refine modify_numbered hmethod.1 fun row method _ => ?_
    dsimp only [shownMethod]
    rw [roleOf_snoc]
    split <;> rfl
  have hpropertiesAfter : (module.linkedProperties accessors).modify (accessor.property - 1)
      (ImageMetadata.linkProperty (TableId.methodDef.token accessor.method) accessor.role) =
        module.linkedProperties (accessors ++ [accessor]) := by
    exact modify_numbered hproperty.1 fun row property _ =>
      linkProperty_linkedProperty accessors hnames.role property row
  unfold ImageMetadata.linkAccessor
  rw [hmethodRow, hpropertyRow, htable, hsize, if_neg (by omega), if_neg (by omega), if_pos rfl]
  dsimp only [withAccessors]
  rw [List.modify_toArray, List.modify_toArray, hmethodsAfter, hpropertiesAfter]

theorem foldl_linkAccessor (m : CodeModule) (hmethods : module.methods.length < 0x1000000)
    (hproperties : module.properties.length < 0x1000000) (todo done : List AccessorDraft)
    (hnames : ∀ accessor ∈ todo, module.Names accessor) :
    todo.foldl (fun m accessor => ImageMetadata.linkAccessor m
        (TableId.methodDef.token accessor.method) accessor.role
        (TableId.property.token accessor.property)) (module.withAccessors m done) =
      module.withAccessors m (done ++ todo) := by
  induction todo generalizing done with
  | nil => rw [List.append_nil]; rfl
  | cons first rest ih =>
      rw [List.foldl_cons, linkAccessor_withAccessors m done (hnames first List.mem_cons_self)
        hmethods hproperties,
        ih _ fun accessor hmem => hnames accessor (List.mem_cons_of_mem _ hmem),
        List.append_assoc, List.singleton_append]

/-!
## Values
-/

/-- A field with the value that it has been given last, if there is one. -/
def valuedField (module : ModuleDraft) (constants : List (Nat × Constant))
    (field : Nat × FieldDraft) (row : Nat) : FieldDefinition :=
  { module.plainField field row with constant := constants.reverse.lookup row }

def valuedFields (module : ModuleDraft) (constants : List (Nat × Constant)) :
    List FieldDefinition :=
  (numbered module.fields).map fun (field, row) => module.valuedField constants field row

/-- When all values have been given, in any order, a field has its own. -/
theorem valuedFields_eq {constants : List (Nat × Constant)}
    (hperm : constants.Perm module.constants) :
    module.valuedFields constants = module.shownFields := by
  refine List.map_congr_left fun (field, row) hmem => ?_
  have hlookup := @lookup_of_perm _ _ (fun field : Nat × FieldDraft => field.2.constant)
    module.fields constants hperm row
  rw [mem_numbered.mp hmem, Option.bind_some] at hlookup
  dsimp only [valuedField]
  rw [hlookup]
  rfl

theorem mem_constants {constant : Nat × Constant} (h : constant ∈ module.constants) :
    1 ≤ constant.1 ∧ constant.1 ≤ module.fields.length := by
  obtain ⟨⟨field, row⟩, hfield, hconstant⟩ := List.mem_filterMap.mp h
  obtain ⟨value, -, rfl⟩ := Option.map_eq_some_iff.mp hconstant
  exact itemAt?_le (mem_numbered.mp hfield)

/-- A row for a value adds it to those that have been given. -/
theorem modify_valuedFields (constants : List (Nat × Constant)) {constant : Nat × Constant}
    (hone : 1 ≤ constant.1) :
    (module.valuedFields constants).modify (constant.1 - 1)
        (fun field => { field with constant := some constant.2 }) =
      module.valuedFields (constants ++ [constant]) := by
  refine modify_numbered hone fun row field _ => ?_
  dsimp only [valuedField]
  rw [List.reverse_append, List.reverse_singleton, List.singleton_append, List.lookup_cons]
  by_cases hrow : constant.1 = row
  · rw [if_pos hrow, hrow, beq_self_eq_true]
  · rw [if_neg hrow, beq_eq_false_iff_ne.mpr (Ne.symm hrow)]

/-- A module with the value of a field. -/
def withValue (m : CodeModule) (constant : Nat × Constant) : CodeModule :=
  { m with fields := m.fields.modify (constant.1 - 1) fun field =>
      { field with constant := some constant.2 } }

theorem foldl_withValue (module : ModuleDraft) (m : CodeModule) (todo done : List (Nat × Constant))
    (hone : ∀ constant ∈ todo, 1 ≤ constant.1) :
    todo.foldl withValue { m with fields := (module.valuedFields done).toArray } =
      { m with fields := (module.valuedFields (done ++ todo)).toArray } := by
  induction todo generalizing done with
  | nil => rw [List.append_nil]; rfl
  | cons first rest ih =>
      have hrest := ih (done ++ [first]) fun constant hmem =>
        hone constant (List.mem_cons_of_mem _ hmem)
      rw [List.append_assoc, List.singleton_append,
        ← modify_valuedFields done (hone first List.mem_cons_self)] at hrest
      rw [List.foldl_cons, ← hrest, withValue, List.modify_toArray]

end ModuleDraft

/-!
## The rows of accessors and of values
-/

namespace ImageDraft

section Links

variable {metadata : ImageMetadata} {draft : ImageDraft} {module : ModuleDraft}
  {order : List AccessorDraft} {m : CodeModule} (holds : Holds metadata draft)
  (encodes : draft.Encodes module order)

include holds encodes

theorem length_methods_lt : module.methods.length < 0x10000 := by
  rw [ModuleDraft.methods, length_owned]
  exact (methods_listed holds encodes).target_lt

theorem length_fields_lt : module.fields.length < 0x10000 := by
  rw [ModuleDraft.fields, length_owned]
  exact (fields_listed holds encodes).target_lt

theorem length_properties_lt : module.properties.length < 0x10000 := by
  rw [ModuleDraft.properties, length_owned, ← ModuleDraft.memberCount_propertyLists]
  exact (properties_listed holds encodes).target_lt

omit holds in
/-- The accessors of well-formed properties name methods that there are. -/
theorem accessor_names (wellFormed : module.WellFormed) {accessor : AccessorDraft}
    (hmem : accessor ∈ order) : module.Names accessor := by
  obtain ⟨property, hproperty, hmethod⟩ :=
    ModuleDraft.mem_accessors.mp (encodes.accessors_perm.mem_iff.mp hmem)
  obtain ⟨type, htype, hin⟩ := exists_owner (itemAt?_mem hproperty)
  have hformed := (wellFormed.types type htype).properties _ hin
  have hbounds := itemAt?_le hproperty
  cases hrole : accessor.role with
  | getter =>
      rw [hrole] at hmethod
      exact ⟨.inl hrole, hformed.getter _ hmethod, hbounds⟩
  | setter =>
      rw [hrole] at hmethod
      exact ⟨.inr hrole, hformed.setter _ hmethod, hbounds⟩
  | _ => rw [hrole] at hmethod; cases hmethod

theorem addAccessors_eq (wellFormed : module.WellFormed)
    (hmethods : m.methods = module.plainMethods.toArray)
    (hproperties : m.properties = module.plainProperties.toArray) :
    metadata.addAccessors m = .ok { m with
      methods := (module.shownMethods order).toArray
      properties := module.shownProperties.toArray } := by
  have hnames : ∀ accessor ∈ order, module.Names accessor := fun _ hmem =>
    accessor_names encodes wellFormed hmem
  have hfold := ModuleDraft.foldl_linkAccessor m
    (Nat.lt_trans (length_methods_lt holds encodes) (by decide))
    (Nat.lt_trans (length_properties_lt holds encodes) (by decide)) order [] hnames
  rw [ModuleDraft.withAccessors_nil hmethods hproperties, List.nil_append,
    ModuleDraft.withAccessors, ModuleDraft.linkedProperties_eq encodes.accessors_perm] at hfold
  rw [← hfold]
  refine foldlM_written holds encodes.accessorRows
    (fun row accessor cells haccessor hform hrow m => ?_) m
  have hformed := hnames accessor (itemAt?_mem haccessor)
  cases hform with
  | mk =>
      have hbits : AccessorRole.ofBits? (accessor.role.propertyBits % UInt16.size) =
          some accessor.role := by
        rcases hformed.role with hrole | hrole <;> rw [hrole] <;> rfl
      have howner : metadata.tables.coded .methodSemantics row 2 .hasSemantics =
          .ok (TableId.property.token accessor.property) := by
        have hproperty := hformed.property.1
        unfold TableStream.coded
        rw [hrow.value rfl, Outcome.ok_bind, CodedIndex.decode_encode rfl (by omega)]
        rfl
      have hmethod : metadata.tables.value .methodSemantics row 1 = .ok accessor.method :=
        hrow.value rfl
      rw [hrow.value rfl, Outcome.ok_bind, hbits]
      dsimp only
      rw [hmethod, Outcome.ok_bind, howner]
      rfl

theorem addConstants_eq (hfields : m.fields = module.plainFields.toArray) :
    metadata.addConstants m = .ok { m with fields := module.shownFields.toArray } := by
  obtain ⟨ordered, hperm, hwritten⟩ := encodes.constants
  have hbounds : ∀ constant ∈ ordered, 1 ≤ constant.1 ∧ constant.1 ≤ module.fields.length :=
    fun constant hmem => ModuleDraft.mem_constants (hperm.mem_iff.mp hmem)
  have hsmall := length_fields_lt holds encodes
  have hfold := module.foldl_withValue m ordered [] fun constant hmem => (hbounds constant hmem).1
  have hplain : module.valuedFields [] = module.plainFields := rfl
  rw [hplain, ← hfields, List.nil_append, ModuleDraft.valuedFields_eq hperm] at hfold
  rw [← hfold]
  refine foldlM_written holds hwritten (fun row constant cells hconstant hform hrow m => ?_) m
  have hrange := hbounds constant (itemAt?_mem hconstant)
  cases hform with
  | @mk element _ bytes hform hblob =>
      have hparent : metadata.tables.coded .constant row 1 .hasConstant =
          .ok (TableId.field.token constant.1) := by
        unfold TableStream.coded
        rw [hrow.value rfl, Outcome.ok_bind, CodedIndex.decode_encode rfl (by omega)]
        rfl
      have htable : (TableId.field.token constant.1).table = TableId.field.number :=
        TableId.table_token _ _
      have hfield : (TableId.field.token constant.1).row = constant.1 :=
        Token.row_ofParts _ _ (by omega)
      have helement : metadata.tables.value .constant row 0 = .ok element := hrow.value rfl
      rw [hparent, Outcome.ok_bind, htable, if_neg (fun hne => hne rfl), helement, Outcome.ok_bind,
        holds.blob (hrow.value rfl) hblob, Outcome.ok_bind, Nat.mod_eq_of_lt hform.element_lt,
        hform.decode, Error.attempt, Outcome.ok_bind, hfield]
      dsimp only
      rw [if_neg (by omega)]
      rfl

end Links

end ImageDraft
end AssemblyBrowser
