import AssemblyBrowser.Proofs.Codec.CodedIndexes
import AssemblyBrowser.Proofs.Containment.Redirections
import AssemblyBrowser.Proofs.Lookup.Numbering
import AssemblyBrowser.Proofs.Passes
import AssemblyBrowser.Proofs.TypeTrees

/-!
# Accessors and what they stand behind

An accessor is not shown by itself, since its property or its event is. Which method
is an accessor and of what is said by rows, each with a role. All roles but one have a
place in properties or in events, where the method is recorded. A method of the other
role is an accessor, too, but no property and no event records it.
-/

namespace AssemblyBrowser

/-!
## Rows
-/

/-- A row that gives a method a role in a property or an event. -/
structure AccessorRow where
  role : AccessorRole
  method : Token
  owner : Token
  owner_table : owner.row ≠ 0 →
    owner.table = TableId.property.number ∨ owner.table = TableId.event.number

theorem CodedIndex.table_decode_hasSemantics {value : Nat}
    (h : (CodedIndex.hasSemantics.decode value).row ≠ 0) :
    (CodedIndex.hasSemantics.decode value).table = TableId.property.number ∨
      (CodedIndex.hasSemantics.decode value).table = TableId.event.number := by
  have htable (table : TableId) (row : Nat) : (table.token row).table = table.number :=
    Token.table_ofParts _ _ (Nat.lt_trans table.number_lt (by decide))
  cases hvalue : CodedIndex.hasSemantics.tableOf? value with
  | none =>
      rw [decode_of_no_table hvalue] at h
      exact absurd rfl h
  | some table =>
      by_cases hrow : CodedIndex.hasSemantics.rowOf value = 0
      · rw [decode_of_no_row hrow] at h
        exact absurd rfl h
      · rw [decode_of_table hvalue hrow, htable]
        have hmem : table ∈ [TableId.event, TableId.property] := by
          unfold tableOf? at hvalue
          have hat := List.mem_of_getElem? (Option.join_eq_some_iff.mp hvalue)
          simpa [tables] using hat
        rcases List.mem_pair.mp hmem with rfl | rfl
        · exact .inr rfl
        · exact .inl rfl

namespace ImageMetadata

variable {metadata : ImageMetadata} {m after : CodeModule}

/-- Reads a row, if its role is known. -/
def accessorRow? (metadata : ImageMetadata) (row : Nat) : Except Error (Option AccessorRow) := do
  match AccessorRole.ofBits? ((← metadata.tables.value .methodSemantics row 0) % UInt16.size) with
  | none => return none
  | some role =>
      let method ← metadata.tables.value .methodSemantics row 1
      let owner ← metadata.tables.value .methodSemantics row 2
      return some {
        role
        method := TableId.methodDef.token method
        owner := CodedIndex.hasSemantics.decode owner
        owner_table := CodedIndex.table_decode_hasSemantics }

/-- Reads the rows of known roles. -/
def accessorRows (metadata : ImageMetadata) : Except Error (List AccessorRow) := do
  return (← (metadata.rows .methodSemantics).mapM metadata.accessorRow?).reduceOption

end ImageMetadata

/-- A module after a row has been taken into account. -/
def AccessorRow.link (m : CodeModule) (row : AccessorRow) : CodeModule :=
  ImageMetadata.linkAccessor m row.method row.role row.owner

namespace ImageMetadata

variable {metadata : ImageMetadata} {m after : CodeModule}

theorem addAccessors_rows (h : metadata.addAccessors m = .ok after) :
    ∃ rows, metadata.accessorRows = .ok rows ∧ after = rows.foldl AccessorRow.link m := by
  obtain ⟨parts, hparts, hafter⟩ :
      ∃ parts, (metadata.rows .methodSemantics).mapM metadata.accessorRow? = .ok parts ∧
        after = parts.reduceOption.foldl AccessorRow.link m := by
    refine Outcome.foldlM_of_reads (fun before row => ?_) h
    unfold accessorRow? TableStream.coded
    cases metadata.tables.value .methodSemantics row 0 with
    | error => rfl
    | ok bits =>
        simp only [Outcome.ok_bind]
        cases AccessorRole.ofBits? (bits % UInt16.size) with
        | none => rfl
        | some role =>
            cases metadata.tables.value .methodSemantics row 1 with
            | error => rfl
            | ok method =>
                cases metadata.tables.value .methodSemantics row 2 with
                | error => rfl
                | ok owner => rfl
  exact ⟨parts.reduceOption, Outcome.bind_ok hparts rfl, hafter⟩

end ImageMetadata
/-!
## What properties and events record
-/

/-- The roles that have a place in a property. -/
def AccessorRole.ofProperty : AccessorRole → Bool
  | .getter => true
  | .setter => true
  | _ => false

/-- The roles that have a place in an event. -/
def AccessorRole.ofEvent : AccessorRole → Bool
  | .adder => true
  | .remover => true
  | .raiser => true
  | _ => false

theorem AccessorRole.ne_other {role : AccessorRole}
    (h : role.ofProperty = true ∨ role.ofEvent = true) : role ≠ .other := by
  rintro rfl
  exact h.elim Bool.false_ne_true Bool.false_ne_true

def PropertyDefinition.accessor (property : PropertyDefinition) : AccessorRole → Option Token
  | .getter => property.getter
  | .setter => property.setter
  | _ => none

def EventDefinition.accessor (event : EventDefinition) : AccessorRole → Option Token
  | .adder => event.adder
  | .remover => event.remover
  | .raiser => event.raiser
  | _ => none

theorem accessor_linkProperty (method : Token) (role : AccessorRole)
    (property : PropertyDefinition) (place : AccessorRole) :
    (ImageMetadata.linkProperty method role property).accessor place =
      if role = place ∧ role.ofProperty = true then some method else property.accessor place := by
  cases role <;> cases place <;> rfl

theorem accessor_linkEvent (method : Token) (role : AccessorRole) (event : EventDefinition)
    (place : AccessorRole) :
    (ImageMetadata.linkEvent method role event).accessor place =
      if role = place ∧ role.ofEvent = true then some method else event.accessor place := by
  cases role <;> cases place <;> rfl

namespace CodeModule

/-- A property or an event of the module records the method in that role. -/
def Records (m : CodeModule) (role : AccessorRole) (method : Token) : Prop :=
  (∃ property ∈ m.properties, property.accessor role = some method) ∨
    ∃ event ∈ m.events, event.accessor role = some method

/-- The property or event of the token does so. -/
def RecordsAt (m : CodeModule) (owner : Token) (role : AccessorRole) (method : Token) : Prop :=
  (∃ property, m.property? owner = some property ∧ property.accessor role = some method) ∨
    ∃ event, m.event? owner = some event ∧ event.accessor role = some method

end CodeModule

/-- A lookup where the row of a token has been changed, if the token names a row of the table. -/
theorem byRow_modify {α : Type} (rows : Array α) (table : TableId) (change : α → α)
    (target token : Token) :
    byRow (if target.row ≠ 0 ∧ target.table = table.number then
        rows.modify (target.row - 1) change else rows) table token =
      (byRow rows table token).map fun item => if token = target then change item else item := by
  by_cases hnamed : token.table = table.number ∧ token.row ≠ 0
  · unfold byRow
    rw [if_pos hnamed, if_pos hnamed]
    by_cases htoken : token = target
    · rw [← htoken, if_pos hnamed.symm, Array.getElem?_modify, if_pos rfl]
      simp only [if_pos]
    · simp only [if_neg htoken, Option.map_id']
      split_ifs with htarget
      · have hother : ¬ target.row - 1 = token.row - 1 := fun hsame =>
          htoken (Token.ext_parts (hnamed.1.trans htarget.2.symm) (by omega))
        rw [Array.getElem?_modify, if_neg hother]
      · rfl
  · unfold byRow
    rw [if_neg hnamed, if_neg hnamed]
    rfl

namespace AccessorRow

variable {m : CodeModule} {row : AccessorRow}

/-!
## One row
-/

/-- The row is taken into account, as its method exists. -/
def Applies (m : CodeModule) (row : AccessorRow) : Prop :=
  row.method.row ≠ 0 ∧ row.method.row ≤ m.methods.size

theorem link_of_not_applies (h : ¬ row.Applies m) : row.link m = m := by
  refine if_pos ?_
  unfold Applies at h
  omega

/-- What a row changes: the role of its method, and one property or one event. -/
theorem link_of_applies (h : row.Applies m) : row.link m =
    { m with
      methods := m.methods.modify (row.method.row - 1) fun d => { d with role := some row.role }
      properties :=
        if row.owner.row ≠ 0 ∧ row.owner.table = TableId.property.number then
          m.properties.modify (row.owner.row - 1)
            (ImageMetadata.linkProperty row.method row.role)
        else m.properties
      events :=
        if row.owner.row ≠ 0 ∧ row.owner.table = TableId.event.number then
          m.events.modify (row.owner.row - 1) (ImageMetadata.linkEvent row.method row.role)
        else m.events } := by
  have hpresent : ¬ (row.method.row = 0 ∨ m.methods.size < row.method.row) := by
    unfold Applies at h
    omega
  unfold link ImageMetadata.linkAccessor
  rw [if_neg hpresent]
  by_cases hrow : row.owner.row = 0
  · simp [hrow]
  · have hapart : TableId.event.number ≠ TableId.property.number := by decide
    rcases row.owner_table hrow with htable | htable
    · simp [hrow, htable, hapart.symm]
    · simp [hrow, htable, hapart]

theorem property?_link (h : row.Applies m) (token : Token) :
    (row.link m).property? token = (m.property? token).map fun property =>
      if token = row.owner then ImageMetadata.linkProperty row.method row.role property
      else property := by
  rw [link_of_applies h]
  exact byRow_modify ..

theorem event?_link (h : row.Applies m) (token : Token) :
    (row.link m).event? token = (m.event? token).map fun event =>
      if token = row.owner then ImageMetadata.linkEvent row.method row.role event else event := by
  rw [link_of_applies h]
  exact byRow_modify ..

/-- The method at an index is the one that the row names. -/
def Names (row : AccessorRow) (index : Nat) : Prop := row.method.row = index + 1

/-- The property or the event of the row exists. -/
def HasOwner (m : CodeModule) (row : AccessorRow) : Prop :=
  (m.property? row.owner).isSome = true ∨ (m.event? row.owner).isSome = true

/-- The property or the event of the row exists, and the role has a place in it. -/
def Fits (m : CodeModule) (row : AccessorRow) : Prop :=
  ((m.property? row.owner).isSome = true ∧ row.role.ofProperty = true) ∨
    ((m.event? row.owner).isSome = true ∧ row.role.ofEvent = true)

/-- The row gives the place that another one gives its method to another method. -/
def Replaces (later row : AccessorRow) : Prop :=
  later.owner = row.owner ∧ later.role = row.role ∧ later.method ≠ row.method

theorem fits_link (other : AccessorRow) : row.Fits (other.link m) ↔ row.Fits m := by
  by_cases h : other.Applies m
  · unfold Fits
    rw [property?_link h, event?_link h, Option.isSome_map, Option.isSome_map]
  · rw [link_of_not_applies h]

theorem size_methods_link (other : AccessorRow) :
    (other.link m).methods.size = m.methods.size := by
  by_cases h : other.Applies m
  · rw [link_of_applies h, Array.size_modify]
  · rw [link_of_not_applies h]

/-- A row that fits is recorded. -/
theorem recordsAt_link (h : row.Applies m) (hfits : row.Fits m) :
    (row.link m).RecordsAt row.owner row.role row.method := by
  rcases hfits with ⟨hsome, hplace⟩ | ⟨hsome, hplace⟩
  · obtain ⟨property, hproperty⟩ := Option.isSome_iff_exists.mp hsome
    refine .inl ⟨_, by rw [property?_link h, hproperty, Option.map_some, if_pos rfl], ?_⟩
    rw [accessor_linkProperty, if_pos ⟨rfl, hplace⟩]
  · obtain ⟨event, hevent⟩ := Option.isSome_iff_exists.mp hsome
    refine .inr ⟨_, by rw [event?_link h, hevent, Option.map_some, if_pos rfl], ?_⟩
    rw [accessor_linkEvent, if_pos ⟨rfl, hplace⟩]

/-- What has been recorded for a row stays until another row takes its place. -/
theorem recordsAt_link_of_not_replaces {later : AccessorRow} (h : ¬ later.Replaces row)
    (hrecords : m.RecordsAt row.owner row.role row.method) :
    (later.link m).RecordsAt row.owner row.role row.method := by
  by_cases happlies : later.Applies m
  case neg => rwa [link_of_not_applies happlies]
  have hkept (howner : row.owner = later.owner) (hrole : later.role = row.role) :
      some later.method = some row.method := by
    by_contra hother
    exact h ⟨howner.symm, hrole, fun hsame => hother (congrArg some hsame)⟩
  rcases hrecords with ⟨property, hproperty, haccessor⟩ | ⟨event, hevent, haccessor⟩
  · refine .inl ⟨_, by rw [property?_link happlies, hproperty, Option.map_some], ?_⟩
    split_ifs with howner
    · rw [accessor_linkProperty]
      split_ifs with hrole
      · exact hkept howner hrole.1
      · exact haccessor
    · exact haccessor
  · refine .inr ⟨_, by rw [event?_link happlies, hevent, Option.map_some], ?_⟩
    split_ifs with howner
    · rw [accessor_linkEvent]
      split_ifs with hrole
      · exact hkept howner hrole.1
      · exact haccessor
    · exact haccessor

/-- A row makes nothing recorded but its own method, in a role that has a place. -/
theorem records_of_link {role : AccessorRole} {method : Token}
    (h : (row.link m).Records role method) :
    m.Records role method ∨ (row.role ≠ .other ∧ row.method = method) := by
  by_cases happlies : row.Applies m
  case neg =>
    rw [link_of_not_applies happlies] at h
    exact .inl h
  rw [link_of_applies happlies] at h
  rcases h with ⟨property, hmem, haccessor⟩ | ⟨event, hmem, haccessor⟩
  · revert property
    dsimp only
    split_ifs
    · refine CodeModule.Indexed.forall_mem_modify
        (fun property hmem haccessor => .inl (.inl ⟨property, hmem, haccessor⟩)) _ ?_
      intro property hkept haccessor
      rw [accessor_linkProperty] at haccessor
      split_ifs at haccessor with hrole
      · exact .inr ⟨AccessorRole.ne_other (.inl hrole.2), Option.some.inj haccessor⟩
      · exact hkept haccessor
    · exact fun property hmem haccessor => .inl (.inl ⟨property, hmem, haccessor⟩)
  · revert event
    dsimp only
    split_ifs
    · refine CodeModule.Indexed.forall_mem_modify
        (fun event hmem haccessor => .inl (.inr ⟨event, hmem, haccessor⟩)) _ ?_
      intro event hkept haccessor
      rw [accessor_linkEvent] at haccessor
      split_ifs at haccessor with hrole
      · exact .inr ⟨AccessorRole.ne_other (.inr hrole.2), Option.some.inj haccessor⟩
      · exact hkept haccessor
    · exact fun event hmem haccessor => .inl (.inr ⟨event, hmem, haccessor⟩)

/-- The method that a row names is an accessor, and no other one becomes an accessor. -/
theorem isAccessor_link {index : Nat} {method : MethodDefinition}
    (h : (row.link m).methods[index]? = some method) :
    ∃ before, m.methods[index]? = some before ∧
      (method.isAccessor = true ↔ before.isAccessor = true ∨ row.Names index) := by
  by_cases happlies : row.Applies m
  · rw [link_of_applies happlies, Array.getElem?_modify] at h
    obtain ⟨hrow, -⟩ := happlies
    split_ifs at h with hindex
    · obtain ⟨before, hbefore, rfl⟩ := Option.map_eq_some_iff.mp h
      have hnames : row.Names index := by
        unfold Names
        omega
      exact ⟨before, hbefore, iff_of_true rfl (.inr hnames)⟩
    · have hother : ¬ row.Names index := by
        unfold Names
        omega
      exact ⟨method, h, (or_iff_left hother).symm⟩
  · rw [link_of_not_applies happlies] at h
    have hother : ¬ row.Names index := by
      obtain ⟨hlt, -⟩ := Array.getElem?_eq_some_iff.mp h
      unfold Names
      unfold Applies at happlies
      omega
    exact ⟨method, h, (or_iff_left hother).symm⟩

/-!
## All rows
-/

variable {rows : List AccessorRow}

theorem fits_foldl : row.Fits (rows.foldl link m) ↔ row.Fits m := by
  induction rows generalizing m with
  | nil => rfl
  | cons first rest ih => rw [List.foldl_cons, ih, fits_link]

theorem size_methods_foldl : (rows.foldl link m).methods.size = m.methods.size := by
  induction rows generalizing m with
  | nil => rfl
  | cons first rest ih => rw [List.foldl_cons, ih, size_methods_link]

theorem recordsAt_foldl (h : ∀ later ∈ rows, ¬ later.Replaces row)
    (hrecords : m.RecordsAt row.owner row.role row.method) :
    (rows.foldl link m).RecordsAt row.owner row.role row.method := by
  induction rows generalizing m with
  | nil => exact hrecords
  | cons first rest ih =>
      rw [List.forall_mem_cons] at h
      exact ih h.2 (recordsAt_link_of_not_replaces h.1 hrecords)

/-- What the last row for a place says is recorded in the end. -/
theorem recordsAt_of_last {before after : List AccessorRow} (happlies : row.Applies m)
    (hfits : row.Fits m) (hlast : ∀ later ∈ after, ¬ later.Replaces row) :
    ((before ++ row :: after).foldl link m).RecordsAt row.owner row.role row.method := by
  rw [List.foldl_append, List.foldl_cons]
  refine recordsAt_foldl hlast (recordsAt_link ?_ (fits_foldl.mpr hfits))
  unfold Applies
  rwa [size_methods_foldl]

theorem records_of_foldl {role : AccessorRole} {method : Token}
    (h : (rows.foldl link m).Records role method) :
    m.Records role method ∨ ∃ row ∈ rows, row.role ≠ .other ∧ row.method = method := by
  induction rows generalizing m with
  | nil => exact .inl h
  | cons first rest ih =>
      rcases ih h with hlink | ⟨row, hmem, hrow⟩
      · rcases records_of_link hlink with hbefore | ⟨hplace, hmethod⟩
        · exact .inl hbefore
        · exact .inr ⟨first, List.mem_cons_self, hplace, hmethod⟩
      · exact .inr ⟨row, List.mem_cons_of_mem _ hmem, hrow⟩

theorem isAccessor_foldl {index : Nat} {method : MethodDefinition}
    (h : (rows.foldl link m).methods[index]? = some method) :
    ∃ before, m.methods[index]? = some before ∧
      (method.isAccessor = true ↔
        before.isAccessor = true ∨ ∃ row ∈ rows, row.Names index) := by
  induction rows generalizing m with
  | nil => exact ⟨method, h, by simp⟩
  | cons first rest ih =>
      obtain ⟨linked, hlinked, hrest⟩ := ih h
      obtain ⟨before, hbefore, hfirst⟩ := isAccessor_link hlinked
      refine ⟨before, hbefore, ?_⟩
      rw [hrest, hfirst, List.exists_mem_cons_iff, or_assoc]

end AccessorRow

/-!
## Modules
-/

/-- No method has a role yet, and nothing is recorded. -/
structure CodeModule.Unlinked (m : CodeModule) : Prop where
  isAccessor : ∀ method ∈ m.methods, method.isAccessor = false
  records : ∀ role method, ¬ m.Records role method

namespace ImageMetadata

variable {metadata : ImageMetadata} {scope : TypeScope} {m after : CodeModule}

theorem addMethods_unlinked (h : metadata.addMethods scope m = .ok after) :
    ∀ method ∈ after.methods, method.isAccessor = false := by
  unfold addMethods at h
  obtain ⟨owners, -, h⟩ := Outcome.bind_eq_ok.mp h
  obtain ⟨generics, -, h⟩ := Outcome.bind_eq_ok.mp h
  obtain ⟨methods, hmap, hpure⟩ := Outcome.bind_eq_ok.mp h
  rw [← Outcome.pure_eq_ok.mp hpure]
  refine fun method hmem => Outcome.forall_of_mapM (P := fun method => method.isAccessor = false)
    hmap ?_ method (List.mem_toArray.mp hmem)
  intro row method hrow
  obtain ⟨declaringType, -, hrow⟩ := Outcome.bind_eq_ok.mp hrow
  obtain ⟨types, -, hrow⟩ := Outcome.bind_eq_ok.mp hrow
  obtain ⟨range, -, hrow⟩ := Outcome.bind_eq_ok.mp hrow
  obtain ⟨parameters, -, hrow⟩ := Outcome.bind_eq_ok.mp hrow
  obtain ⟨name, -, hrow⟩ := Outcome.bind_eq_ok.mp hrow
  obtain ⟨flags, -, hrow⟩ := Outcome.bind_eq_ok.mp hrow
  rw [← Outcome.pure_eq_ok.mp hrow]
  rfl

theorem addProperties_unlinked (h : metadata.addProperties scope m = .ok after) :
    ∀ property ∈ after.properties, ∀ role, property.accessor role = none := by
  unfold addProperties at h
  obtain ⟨owners, -, h⟩ := Outcome.bind_eq_ok.mp h
  obtain ⟨properties, hmap, hpure⟩ := Outcome.bind_eq_ok.mp h
  rw [← Outcome.pure_eq_ok.mp hpure]
  refine fun property hmem => Outcome.forall_of_mapM
    (P := fun property => ∀ role, property.accessor role = none) hmap ?_ property
    (List.mem_toArray.mp hmem)
  intro row property hrow role
  obtain ⟨declaringType, -, hrow⟩ := Outcome.bind_eq_ok.mp hrow
  obtain ⟨types, -, hrow⟩ := Outcome.bind_eq_ok.mp hrow
  obtain ⟨name, -, hrow⟩ := Outcome.bind_eq_ok.mp hrow
  obtain ⟨flags, -, hrow⟩ := Outcome.bind_eq_ok.mp hrow
  rw [← Outcome.pure_eq_ok.mp hrow]
  cases role <;> rfl

theorem addEvents_unlinked (h : metadata.addEvents scope m = .ok after) :
    ∀ event ∈ after.events, ∀ role, event.accessor role = none := by
  unfold addEvents at h
  obtain ⟨owners, -, h⟩ := Outcome.bind_eq_ok.mp h
  obtain ⟨events, hmap, hpure⟩ := Outcome.bind_eq_ok.mp h
  rw [← Outcome.pure_eq_ok.mp hpure]
  refine fun event hmem => Outcome.forall_of_mapM
    (P := fun event => ∀ role, event.accessor role = none) hmap ?_ event
    (List.mem_toArray.mp hmem)
  intro row event hrow role
  obtain ⟨declaringType, -, hrow⟩ := Outcome.bind_eq_ok.mp hrow
  obtain ⟨handler, -, hrow⟩ := Outcome.bind_eq_ok.mp hrow
  have hread : ∃ type flags name, event =
      { token := TableId.event.token row, name, declaringType, type, flags } := by
    dsimp only at hrow
    split at hrow
    all_goals
      obtain ⟨type, -, hrow⟩ := Outcome.bind_eq_ok.mp hrow
      obtain ⟨name, -, hrow⟩ := Outcome.bind_eq_ok.mp hrow
      obtain ⟨flags, -, hrow⟩ := Outcome.bind_eq_ok.mp hrow
      exact ⟨type, _, name, (Outcome.pure_eq_ok.mp hrow).symm⟩
  obtain ⟨type, flags, name, rfl⟩ := hread
  cases role <;> rfl

/-- The last pass changes fields only. -/
theorem addConstants_fields (h : metadata.addConstants m = .ok after) :
    ∃ fields, after = { m with fields } := by
  refine Outcome.foldlM_keeps (P := fun kept => ∃ fields, kept = { m with fields }) h
    ⟨m.fields, rfl⟩ ?_
  rintro before row next hstep ⟨fields, rfl⟩
  obtain ⟨parent, -, hstep⟩ := Outcome.bind_eq_ok.mp hstep
  split at hstep
  · exact ⟨fields, (Outcome.pure_eq_ok.mp hstep).symm⟩
  · obtain ⟨elementType, -, hstep⟩ := Outcome.bind_eq_ok.mp hstep
    obtain ⟨blob, -, hstep⟩ := Outcome.bind_eq_ok.mp hstep
    obtain ⟨value?, -, hstep⟩ := Outcome.bind_eq_ok.mp hstep
    split at hstep
    · exact ⟨fields, (Outcome.pure_eq_ok.mp hstep).symm⟩
    · split at hstep
      · exact ⟨fields, (Outcome.pure_eq_ok.mp hstep).symm⟩
      · exact ⟨_, (Outcome.pure_eq_ok.mp hstep).symm⟩

/-- A module comes from one in which nothing is linked, by the rows in their order. -/
theorem toModule_links {name : String} (h : metadata.toModule name = .ok m) :
    ∃ start rows fields, start.Unlinked ∧ metadata.accessorRows = .ok rows ∧
      m = { rows.foldl AccessorRow.link start with fields } := by
  obtain ⟨scope, _, _, withFields, withMethods, withProperties, withEvents, withAccessors, -, -, -,
    hmethods, hproperties, hevents, haccessors, hconstants, -⟩ := toModule_passes h
  obtain ⟨rows, hrows, rfl⟩ := addAccessors_rows haccessors
  obtain ⟨fields, hm⟩ := addConstants_fields hconstants
  have hkept : withEvents.methods = withMethods.methods ∧
      withEvents.properties = withProperties.properties := by
    obtain ⟨_, _, -, hwithProperties, -⟩ := addProperties_read hproperties
    obtain ⟨_, _, -, hwithEvents, -⟩ := addEvents_read hevents
    rw [hwithEvents]
    refine ⟨?_, rfl⟩
    rw [hwithProperties]
  refine ⟨withEvents, rows, fields, ⟨?_, ?_⟩, hrows, hm⟩
  · rw [hkept.1]
    exact addMethods_unlinked hmethods
  · rintro role method (⟨property, hmem, haccessor⟩ | ⟨event, hmem, haccessor⟩)
    · rw [hkept.2] at hmem
      rw [addProperties_unlinked hproperties property hmem] at haccessor
      cases haccessor
    · rw [addEvents_unlinked hevents event hmem] at haccessor
      cases haccessor

end ImageMetadata

namespace CodeModule

/-- Accessors of all roles but one have stand-ins. A method is an accessor only if a row says so. If
the property or the event of the row has a place for the role, and no later row gives that place to
another method, then the method is recorded there. A method that has only the other role is an
accessor, too, but nothing records it. -/
theorem accessors_recorded {image : Image} {name : String} {m : CodeModule}
    (h : ofImage image name = .ok m) :
    ∃ metadata rows, ImageMetadata.ofImage image = .ok metadata ∧
      metadata.accessorRows = .ok rows ∧
      ∀ index method, m.methods[index]? = some method →
        (method.isAccessor = true → ∃ row ∈ rows, row.Names index) ∧
        (∀ before row after, rows = before ++ row :: after → row.Names index → row.Fits m →
          (∀ later ∈ after, ¬ later.Replaces row) →
            method.isAccessor = true ∧ m.RecordsAt row.owner row.role row.method) ∧
        ((∀ row ∈ rows, row.Names index → row.role = .other) →
          (∀ row ∈ rows, row.Names index → row.HasOwner m → method.isAccessor = true) ∧
          ∀ role token, token.row = index + 1 → ¬ m.Records role token) := by
  obtain ⟨metadata, hmetadata, hmodule⟩ := Outcome.bind_eq_ok.mp h
  obtain ⟨start, rows, fields, hstart, hrows, rfl⟩ := ImageMetadata.toModule_links hmodule
  refine ⟨metadata, rows, hmetadata, hrows, fun index method hmethod => ?_⟩
  obtain ⟨unlinked, hunlinked, haccessor⟩ := AccessorRow.isAccessor_foldl hmethod
  have hnone := hstart.isAccessor unlinked (Array.mem_of_getElem? hunlinked)
  rw [hnone, Bool.false_eq_true, false_or] at haccessor
  refine ⟨haccessor.mp, ?_, ?_⟩
  · rintro before row after rfl hnames hfits hlast
    have happlies : row.Applies start := by
      obtain ⟨hlt, -⟩ := Array.getElem?_eq_some_iff.mp hunlinked
      unfold AccessorRow.Names at hnames
      unfold AccessorRow.Applies
      omega
    refine ⟨haccessor.mpr ⟨row, by simp, hnames⟩, ?_⟩
    exact AccessorRow.recordsAt_of_last happlies (AccessorRow.fits_foldl.mp hfits) hlast
  · intro honly
    refine ⟨fun row hmem hnames _ => haccessor.mpr ⟨row, hmem, hnames⟩, ?_⟩
    intro role token htoken hrecords
    rcases AccessorRow.records_of_foldl hrecords with hbefore | ⟨row, hmem, hplace, rfl⟩
    · exact hstart.records role token hbefore
    · exact hplace (honly row hmem htoken)

section Sample

/-- A class with a property, its getter, and a method with the other role in the property. -/
def resetDraft : ImageDraft where
  strings := [0, 78, 0, 67, 0, 80, 0, 103, 101, 116, 95, 80, 0, 114, 101, 115, 101, 116, 95, 80, 0]
  blobs := [0, 3, 0x20, 0, 0x08, 3, 0x28, 0, 0x08, 3, 0x20, 0, 0x01]
  rows
    | .typeDef => [[1, 3, 1, 0, 1, 1]]
    | .methodDef => [[0, 0, 0x0806, 7, 1, 1], [0, 0, 0x0806, 13, 9, 1]]
    | .propertyMap => [[1, 1]]
    | .property => [[0, 5, 5]]
    | .methodSemantics => [[2, 1, 3], [4, 2, 3]]
    | _ => []
  mvid := Vector.replicate 16 0
  entryPoint := 0

theorem resetDraft_fits : resetDraft.Fits := .of_all (by decide +kernel) (by decide +kernel)

/-- The roles that the rows of the image give, and to which methods. -/
def resetRoles : List (AccessorRole × Token × Token) :=
  [(.getter, TableId.methodDef.token 1, TableId.property.token 1),
    (.other, TableId.methodDef.token 2, TableId.property.token 1)]

/-- Both methods are accessors, and the property records the first one as its getter. -/
def ReadsReset (m : CodeModule) : Prop :=
  m.methods.map (fun method => (method.token, method.isAccessor)) =
      #[(TableId.methodDef.token 1, true), (TableId.methodDef.token 2, true)] ∧
    m.properties.map (fun property => (property.getter, property.setter)) =
      #[(some (TableId.methodDef.token 1), none)] ∧
    m.events.size = 0

instance (m : CodeModule) : Decidable (ReadsReset m) := inferInstanceAs (Decidable (_ ∧ _ ∧ _))

/-- The image, loaded from its rows and heaps. -/
theorem resetDraft_loads : ∃ metadata m rows,
    ImageMetadata.ofImage (resetDraft.image resetDraft.headers) = .ok metadata ∧
      metadata.toModule "" = .ok m ∧ ReadsReset m ∧ metadata.accessorRows = .ok rows ∧
      rows.map (fun row => (row.role, row.method, row.owner)) = resetRoles := by
  have hloads : ((TableStream.decode resetDraft.tableStream.toArray).map
      (resetDraft.opened resetDraft.headers)).toOption.any (fun metadata =>
        (metadata.toModule "").toOption.any (fun m => decide (ReadsReset m)) &&
          metadata.accessorRows.toOption.any fun rows =>
            rows.map (fun row => (row.role, row.method, row.owner)) == resetRoles) = true := by
    decide +kernel
  obtain ⟨metadata, hmetadata, hchecks⟩ := Outcome.exists_of_any hloads
  rw [Bool.and_eq_true] at hchecks
  obtain ⟨m, hm, hreads⟩ := Outcome.exists_of_any hchecks.1
  obtain ⟨rows, hrows, hroles⟩ := Outcome.exists_of_any hchecks.2
  refine ⟨metadata, m, rows, ?_, hm, of_decide_eq_true hreads, hrows, beq_iff_eq.mp hroles⟩
  rw [ImageDraft.ofImage_eq resetDraft_fits (ImageDraft.length_headers _), hmetadata]

/-- The method at an index of the module. -/
theorem ReadsReset.exists_method {m : CodeModule} (h : ReadsReset m) {index : Nat}
    (hindex : index < 2) : ∃ method, m.methods[index]? = some method ∧
      method.token = TableId.methodDef.token (index + 1) ∧ method.isAccessor = true := by
  have hat : (m.methods.map fun method => (method.token, method.isAccessor))[index]? =
      some (TableId.methodDef.token (index + 1), true) := by
    rw [h.1]
    match index, hindex with
    | 0, _ => rfl
    | 1, _ => rfl
  rw [Array.getElem?_map] at hat
  obtain ⟨method, hmethod, hpair⟩ := Option.map_eq_some_iff.mp hat
  obtain ⟨htoken, haccessor⟩ := Prod.mk.inj hpair
  exact ⟨method, hmethod, htoken, haccessor⟩

/-- The getter is an accessor, and the property records it. -/
theorem accessors_recorded_getter : ∃ m method,
    ofImage (resetDraft.image resetDraft.headers) "" = .ok m ∧ m.methods[0]? = some method ∧
      method.isAccessor = true ∧
      m.RecordsAt (TableId.property.token 1) .getter (TableId.methodDef.token 1) := by
  obtain ⟨metadata, m, rows, hmetadata, hm, hreads, hrows, hroles⟩ := resetDraft_loads
  have hmodule : ofImage (resetDraft.image resetDraft.headers) "" = .ok m :=
    Outcome.bind_ok hmetadata hm
  obtain ⟨_, _, hsame, hread, haccessors⟩ := accessors_recorded hmodule
  cases hmetadata.symm.trans hsame
  cases hrows.symm.trans hread
  obtain ⟨method, hmethod, -⟩ := hreads.exists_method (by decide : 0 < 2)
  obtain ⟨getter, after, rfl, hgetter, hafter⟩ := List.map_eq_cons_iff.mp hroles
  obtain ⟨hrole, htokens⟩ := Prod.mk.inj hgetter
  obtain ⟨htoken, howner⟩ := Prod.mk.inj htokens
  have hnames : getter.Names 0 := by
    unfold AccessorRow.Names
    rw [htoken]
    rfl
  have hfits : getter.Fits m := by
    have hproperty : (m.properties.map fun property =>
        (property.getter, property.setter))[0]?.isSome = true := by
      rw [hreads.2.1]
      rfl
    rw [Array.getElem?_map, Option.isSome_map] at hproperty
    refine .inl ⟨?_, by rw [hrole]; rfl⟩
    rw [howner]
    exact hproperty
  have hlast : ∀ later ∈ after, ¬ later.Replaces getter := by
    intro later hmem hreplaces
    have hother : (later.role, later.method, later.owner) ∈
        [(AccessorRole.other, TableId.methodDef.token 2, TableId.property.token 1)] :=
      hafter ▸ List.mem_map_of_mem hmem
    have hlater := congrArg Prod.fst (List.mem_singleton.mp hother)
    have hsame : later.role = AccessorRole.getter := hreplaces.2.1.trans hrole
    exact absurd (hlater.symm.trans hsame) (by decide)
  obtain ⟨haccessor, hrecords⟩ :=
    (haccessors 0 method hmethod).2.1 [] getter after rfl hnames hfits hlast
  rw [hrole, htoken, howner] at hrecords
  exact ⟨m, method, hmodule, hmethod, haccessor, hrecords⟩

/-- The other method is an accessor as well, and nothing records it. -/
theorem other_accessor_not_recorded : ∃ m method,
    ofBytes "" resetDraft.bytes.toArray = .ok m ∧ m.methods[1]? = some method ∧
      method.isAccessor = true ∧ ∀ role, ¬ m.Records role method.token := by
  obtain ⟨metadata, m, -, hmetadata, hm, hreads, -⟩ := resetDraft_loads
  obtain ⟨method, hmethod, htoken, haccessor⟩ := hreads.exists_method (by decide : 1 < 2)
  refine ⟨m, method, ?_, hmethod, haccessor, ?_⟩
  · rw [ofBytes, ImageHeader.decode_bytes resetDraft_fits, Outcome.ok_bind]
    exact Outcome.bind_ok hmetadata hm
  · rintro role (⟨property, hmem, hrole⟩ | ⟨event, hmem, -⟩)
    · have hpair : (property.getter, property.setter) ∈
          #[(some (TableId.methodDef.token 1), none)] :=
        hreads.2.1 ▸ Array.mem_map_of_mem hmem
      obtain ⟨hgetter, hsetter⟩ := Prod.mk.inj (Array.mem_singleton.mp hpair)
      rw [htoken] at hrole
      cases role with
      | getter =>
          rw [PropertyDefinition.accessor, hgetter] at hrole
          exact absurd (Option.some.inj hrole) (by decide)
      | setter =>
          rw [PropertyDefinition.accessor, hsetter] at hrole
          cases hrole
      | _ => cases hrole
    · rw [Array.size_eq_zero_iff.mp hreads.2.2] at hmem
      exact absurd hmem (Array.not_mem_empty _)

end Sample

end CodeModule
end AssemblyBrowser
