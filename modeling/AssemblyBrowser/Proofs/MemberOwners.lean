import AssemblyBrowser.Proofs.Codec.Cells
import AssemblyBrowser.Proofs.Containment.Redirections
import AssemblyBrowser.Proofs.Passes

/-!
# Types own their members

A row says only where the list of its members starts; the list ends where that of
the next row starts. If the starts ascend from 1, then the lists of all types, one
after another, are the rows of the members. So every member is in one list, and the
pass that writes down the owners of members, list by list, writes every owner once.
-/

namespace AssemblyBrowser

/-!
## Lists of rows
-/

namespace TableStream

/-- The first row of the list that a cell starts. Behind the last row of the table lists start
behind the target table, and no list starts later. -/
def listStart (stream : TableStream) (table : TableId) (column : Nat) (target : TableId)
    (row : Nat) : Nat :=
  if row ≤ stream.rows table then
    min ((stream.value table row column).toOption.getD 0) (stream.rows target + 1)
  else stream.rows target + 1

theorem listStart_le (stream : TableStream) (table : TableId) (column : Nat) (target : TableId)
    (row : Nat) : stream.listStart table column target row ≤ stream.rows target + 1 := by
  unfold listStart
  split
  · exact Nat.min_le_right _ _
  · exact Nat.le_refl _

/-- The rows from where a list starts to where the next one does. -/
def listRows (stream : TableStream) (table : TableId) (column : Nat) (target : TableId)
    (row : Nat) : List Nat :=
  List.range' (stream.listStart table column target row)
    (stream.listStart table column target (row + 1) - stream.listStart table column target row)

theorem two_le_sum_widths (sizes : TableSizes) (table : TableId) :
    2 ≤ (sizes.widths table).sum := by
  have hwidth (column : Column) : 2 ≤ sizes.width column := by
    unfold TableSizes.width
    split <;> decide
  obtain ⟨column, rest, hcolumns⟩ : ∃ column rest, table.columns = column :: rest := by
    cases table <;> exact ⟨_, _, rfl⟩
  rw [TableSizes.widths, hcolumns, List.map_cons, List.sum_cons]
  exact Nat.le_add_right_of_le (hwidth column)

section Decoded

variable {data : Bytes} {stream : TableStream} (h : decode data = .ok stream)

include h

theorem exists_value {table : TableId} {row column : Nat}
    (hcell : stream.HasCell table row column) (target : TableId) :
    ∃ cell, stream.value table row column = .ok cell ∧
      min cell (stream.rows target + 1) = stream.listStart table column target row := by
  obtain ⟨sizes, hdata, hstands, -⟩ := exists_starts_of_decode h
  obtain ⟨hat, -, hroom, hpositions⟩ := hstands table
  rw [← hdata] at hroom
  have hvalue := value_eq_of_hasCell hat hcell hroom hpositions
  refine ⟨_, hvalue, ?_⟩
  rw [listStart, if_pos hcell.2.1, hvalue]
  rfl

variable (hsize : data.size < UInt32.size)

include hsize

/-- A row takes two bytes at least, so rows can be counted beyond the last one. -/
theorem rows_succ_lt (table : TableId) : stream.rows table + 1 < UInt32.size := by
  obtain ⟨sizes, -, hstands, -⟩ := exists_starts_of_decode h
  obtain ⟨hat, -, hroom, -⟩ := hstands table
  have hrows : stream.rows table = sizes.rows table := hat.rows
  have hextent := Nat.mul_le_mul_right (sizes.rows table) (two_le_sum_widths sizes table)
  change 2 * sizes.rows table ≤ TableLayout.extent sizes table at hextent
  have hmax : UInt32.size = 4294967296 := rfl
  omega

/-- The list of a row that there is ends where the next list starts, unless that is before. -/
theorem listRange_eq {table : TableId} {row column : Nat}
    (hcell : stream.HasCell table row column) (target : TableId) :
    stream.listRange table row column target =
      .ok (stream.listStart table column target row,
        max (stream.listStart table column target (row + 1))
          (stream.listStart table column target row)) := by
  obtain ⟨start, hvalue, hstart⟩ := exists_value h hcell target
  rw [listRange, Bounded.add_eq_ok (rows_succ_lt h hsize target), Outcome.ok_bind, hvalue,
    Outcome.ok_bind, hstart]
  by_cases hlast : row < stream.rows table
  · have hnext : stream.HasCell table (row + 1) column :=
      ⟨Nat.le_add_left 1 row, hlast, hcell.2.2⟩
    obtain ⟨next, hvalue, hstop⟩ := exists_value h hnext target
    have hroom := rows_succ_lt h hsize table
    rw [if_pos hlast, Bounded.add_eq_ok (by omega), Outcome.ok_bind, hvalue, Outcome.ok_bind,
      hstop]
    rfl
  · have hend : stream.listStart table column target (row + 1) = stream.rows target + 1 :=
      if_neg (by omega)
    rw [if_neg hlast, hend]
    rfl

/-- Whatever a list column holds, the lists of rows that there are lie in the target table. -/
theorem exists_listRange {table : TableId} {row column : Nat}
    (hcell : stream.HasCell table row column) (target : TableId) :
    ∃ start stop, stream.listRange table row column target = .ok (start, stop) ∧
      start ≤ stop ∧ stop ≤ stream.rows target + 1 :=
  ⟨_, _, listRange_eq h hsize hcell target, Nat.le_max_right _ _,
    Nat.max_le.mpr ⟨listStart_le stream table column target _,
      listStart_le stream table column target _⟩⟩

end Decoded

/-- A column whose lists follow one another: the starts ascend from 1 to at most one behind the
last row of the target table, and no pointer table stands in between. Without lists there is
nothing to list. -/
structure ListsAscend (stream : TableStream) (table : TableId) (column : Nat)
    (target pointers : TableId) : Prop where
  direct : stream.rows pointers = 0
  first : stream.value table 1 column = .ok 1 ∨
    stream.rows table = 0 ∧ stream.rows target = 0
  ascend : ∀ row start next, stream.value table row column = .ok start →
    stream.value table (row + 1) column = .ok next → start ≤ next
  within : ∀ row start, stream.value table row column = .ok start →
    start ≤ stream.rows target + 1

theorem row_bounds_of_value {stream : TableStream} {table : TableId} {row column cell : Nat}
    (h : stream.value table row column = .ok cell) : 1 ≤ row ∧ row ≤ stream.rows table := by
  unfold value at h
  dsimp only at h
  split at h
  case isTrue => cases h
  case isFalse hrow =>
    rw [rows]
    omega

/-- Whether lists ascend can be tried row by row. -/
theorem listsAscend_iff {stream : TableStream} {table target pointers : TableId} {column : Nat} :
    stream.ListsAscend table column target pointers ↔
      stream.rows pointers = 0 ∧
      ((stream.value table 1 column).toOption = some 1 ∨
        stream.rows table = 0 ∧ stream.rows target = 0) ∧
      ∀ row ∈ List.range' 1 (stream.rows table),
        ∀ start ∈ (stream.value table row column).toOption, start ≤ stream.rows target + 1 ∧
          ∀ next ∈ (stream.value table (row + 1) column).toOption, start ≤ next := by
  constructor
  · intro h
    refine ⟨h.direct, h.first.imp_left fun hone => congrArg Except.toOption hone, ?_⟩
    intro row _ start hstart
    have hvalue := Outcome.eq_ok_of_toOption hstart
    exact ⟨h.within row start hvalue, fun next hnext =>
      h.ascend row start next hvalue (Outcome.eq_ok_of_toOption hnext)⟩
  · rintro ⟨hdirect, hfirst, hrows⟩
    have hrow {row start : Nat} (hvalue : stream.value table row column = .ok start) :=
      hrows row (List.mem_range'_1.mpr (by have := row_bounds_of_value hvalue; omega)) start
        (by rw [hvalue]; rfl)
    exact ⟨hdirect, hfirst.imp_left Outcome.eq_ok_of_toOption,
      fun row start next hstart hnext => (hrow hstart).2 next (by rw [hnext]; rfl),
      fun row start hstart => (hrow hstart).1⟩

instance {stream : TableStream} {table target pointers : TableId} {column : Nat} :
    Decidable (stream.ListsAscend table column target pointers) :=
  decidable_of_iff' _ listsAscend_iff

namespace ListsAscend

variable {data : Bytes} {stream : TableStream} {table target pointers : TableId} {column : Nat}

theorem listStart_one (h : stream.ListsAscend table column target pointers) :
    stream.listStart table column target 1 = 1 := by
  unfold listStart
  rcases h.first with hone | ⟨hnone, hempty⟩
  · rw [if_pos (row_bounds_of_value hone).2, hone]
    exact Nat.min_eq_left (Nat.le_add_left 1 _)
  · rw [if_neg (by omega), hempty]

theorem listStart_last (stream : TableStream) (table target : TableId) (column : Nat) :
    stream.listStart table column target (stream.rows table + 1) = stream.rows target + 1 := by
  rw [listStart, if_neg (Nat.not_succ_le_self _)]

theorem listStart_le_succ (h : stream.ListsAscend table column target pointers)
    (hdecode : decode data = .ok stream) {row : Nat} (hcell : stream.HasCell table row column) :
    stream.listStart table column target row ≤ stream.listStart table column target (row + 1) := by
  by_cases hlast : row < stream.rows table
  · obtain ⟨start, hstart, heq⟩ := exists_value hdecode hcell target
    obtain ⟨next, hnext, hnextEq⟩ := exists_value hdecode
      (⟨Nat.le_add_left 1 row, hlast, hcell.2.2⟩ : stream.HasCell table (row + 1) column) target
    rw [← heq, ← hnextEq, Nat.min_eq_left (h.within row start hstart),
      Nat.min_eq_left (h.within (row + 1) next hnext)]
    exact h.ascend row start next hstart hnext
  · have hrow : row = stream.rows table := Nat.le_antisymm hcell.2.1 (Nat.not_lt.mp hlast)
    rw [hrow, listStart_last]
    exact listStart_le stream table column target _

end ListsAscend

/-- Ranges of which each starts where the one before ends are one range together. -/
theorem flatMap_ranges {start : Nat → Nat} {count : Nat}
    (h : ∀ row, 1 ≤ row → row ≤ count → start row ≤ start (row + 1)) :
    ((List.range' 1 count).flatMap fun row =>
        List.range' (start row) (start (row + 1) - start row)) =
      List.range' (start 1) (start (count + 1) - start 1) ∧ start 1 ≤ start (count + 1) := by
  induction count with
  | zero => exact ⟨by rw [Nat.zero_add, Nat.sub_self]; rfl, Nat.le_refl _⟩
  | succ count ih =>
      obtain ⟨hranges, hle⟩ := ih fun row hone hrow => h row hone (Nat.le_succ_of_le hrow)
      have hlast := h (count + 1) (Nat.le_add_left 1 count) (Nat.le_refl _)
      refine ⟨?_, Nat.le_trans hle hlast⟩
      rw [List.range'_1_concat, List.flatMap_append, hranges, Nat.add_comm 1 count,
        List.flatMap_singleton]
      have hmiddle : start (count + 1) = start 1 + (start (count + 1) - start 1) := by omega
      have hcount : start (count + 1 + 1) - start 1 =
          (start (count + 1) - start 1) + (start (count + 1 + 1) - start (count + 1)) := by omega
      rw [hcount, ← List.range'_append_1, ← hmiddle]

end TableStream

/-!
## Owners
-/

namespace ImageMetadata

/-- One owner is written for every member that a list names. -/
theorem replaceAll_eq {owner : Token} {listed : List Token} {owners after : Array Token}
    (h : listed.foldlM
      (fun owners m => do Bounded.replace owners (← Bounded.subtract m.row 1) owner) owners =
        .ok after) :
    (∀ token ∈ listed, 1 ≤ token.row) ∧
      ∀ place, after[place]? =
        if place + 1 ∈ listed.map Token.row then some owner else owners[place]? := by
  induction listed generalizing owners with
  | nil =>
      cases h
      exact ⟨fun _ hmem => absurd hmem List.not_mem_nil, fun _ => (if_neg List.not_mem_nil).symm⟩
  | cons token rest ih =>
      rw [List.foldlM_cons] at h
      obtain ⟨replaced, hreplaced, hrest⟩ := Outcome.bind_eq_ok.mp h
      obtain ⟨index, hindex, hreplace⟩ := Outcome.bind_eq_ok.mp hreplaced
      obtain ⟨hone, rfl⟩ := Bounded.subtract_eq_iff.mp hindex
      obtain ⟨hrows, hafter⟩ := ih hrest
      refine ⟨List.forall_mem_cons.mpr ⟨hone, hrows⟩, fun place => ?_⟩
      unfold Bounded.replace at hreplace
      split at hreplace
      case isTrue hlt =>
        cases hreplace
        rw [hafter place, List.map_cons, Array.getElem?_set]
        by_cases hmem : place + 1 ∈ rest.map Token.row
        · rw [if_pos hmem, if_pos (List.mem_cons_of_mem _ hmem)]
        · rw [if_neg hmem]
          by_cases hplace : token.row - 1 = place
          · rw [if_pos hplace, if_pos (List.mem_cons.mpr (.inl (by omega)))]
          · rw [if_neg hplace, if_neg]
            exact fun hcons => (List.mem_cons.mp hcons).elim (fun heq => hplace (by omega)) hmem
      case isFalse => cases hreplace

variable {members : TypeDefinition → List Token}

/-- The owner that is written down for a member is the token of the types that list it, if they
have one token. -/
theorem foldlM_replaceAll_eq {types : List TypeDefinition} {owners after : Array Token}
    (h : types.foldlM
      (fun owners type =>
        (members type).foldlM
          (fun owners m => do
            Bounded.replace owners (← Bounded.subtract m.row 1) type.token) owners)
      owners = .ok after) :
    (∀ type ∈ types, ∀ token ∈ members type, 1 ≤ token.row) ∧
      ∀ place owner,
        (∀ type ∈ types, place + 1 ∈ (members type).map Token.row → type.token = owner) →
        (owners[place]? = some owner ∨
          ∃ type ∈ types, place + 1 ∈ (members type).map Token.row) →
        after[place]? = some owner := by
  induction types generalizing owners with
  | nil =>
      cases h
      refine ⟨fun _ hmem => absurd hmem List.not_mem_nil, ?_⟩
      rintro place owner - (howner | ⟨type, hmem, -⟩)
      · exact howner
      · exact absurd hmem List.not_mem_nil
  | cons type rest ih =>
      rw [List.foldlM_cons] at h
      obtain ⟨written, hwritten, hrest⟩ := Outcome.bind_eq_ok.mp h
      obtain ⟨hone, hat⟩ := replaceAll_eq hwritten
      obtain ⟨hrows, hafter⟩ := ih hrest
      refine ⟨List.forall_mem_cons.mpr ⟨hone, hrows⟩, fun place owner hall hsome => ?_⟩
      refine hafter place owner (fun other hmem => hall other (List.mem_cons_of_mem _ hmem)) ?_
      rw [hat place]
      split
      case isTrue hlisted =>
        exact .inl (congrArg some (hall type List.mem_cons_self hlisted))
      case isFalse hunlisted =>
        rcases hsome with howner | ⟨other, hmem, hlisted⟩
        · exact .inl howner
        · rcases List.mem_cons.mp hmem with rfl | hmem
          · exact absurd hlisted hunlisted
          · exact .inr ⟨other, hmem, hlisted⟩

/-- What types list is what their rows list, as far as it exists. -/
theorem toModule_lists {metadata : ImageMetadata} {name : String} {m : CodeModule}
    (h : metadata.toModule name = .ok m) :
    m.types.size = metadata.tables.rows .typeDef ∧
      ∀ index type, m.types[index]? = some type → ∃ fields methods,
        metadata.listedRows .typeDef (index + 1) 4 .field .fieldPtr = .ok fields ∧
        metadata.listedRows .typeDef (index + 1) 5 .methodDef .methodPtr = .ok methods ∧
        type.fields = (fields.filter fun r => 1 ≤ r ∧ r ≤ metadata.tables.rows .field).map
          TableId.field.token ∧
        type.methods = (methods.filter fun r => 1 ≤ r ∧ r ≤ metadata.tables.rows .methodDef).map
          TableId.methodDef.token := by
  obtain ⟨types, hskeletons, hsize, hsame⟩ := toModule_skeletons h
  obtain ⟨_, _, unlinked, -, -, hunlinked, rfl⟩ := typeSkeletons_ok hskeletons
  have hcount := congrArg Array.size hsame
  rw [CodeModule.skeletons, Array.size_map, Array.size_map, hsize] at hcount
  refine ⟨hcount, fun index type htype => ?_⟩
  have hat := congrArg (fun types => types[index]?) hsame
  simp only [CodeModule.skeletons, linkNesting, Array.getElem?_map, Array.getElem?_mapIdx, htype,
    List.getElem?_toArray] at hat
  obtain ⟨linked, hlinked, hskeleton⟩ := Option.map_eq_some_iff.mp hat.symm
  obtain ⟨before, hbefore, rfl⟩ := Option.map_eq_some_iff.mp hlinked
  obtain ⟨hindex, rfl⟩ := List.getElem?_eq_some_iff.mp hbefore
  obtain ⟨fields, methods, _, _, _, hfields, hmethods, hrow⟩ :=
    typeSkeleton_eq ((mapM_rows hunlinked).2 index hindex)
  refine ⟨fields, methods, hfields, hmethods, ?_, ?_⟩
  · exact (congrArg TypeDefinition.fields hskeleton).symm.trans
      (congrArg TypeDefinition.fields hrow)
  · exact (congrArg TypeDefinition.methods hskeleton).symm.trans
      (congrArg TypeDefinition.methods hrow)

/-- The table stream of an image is as long as its metadata at most. -/
theorem exists_tables {image : Image} {metadata : ImageMetadata}
    (h : ofImage image = .ok metadata) :
    ∃ data, TableStream.decode data = .ok metadata.tables ∧ data.size < UInt32.size := by
  have hopened : metadata.Opened := (h ▸ answers_ofImage image :)
  have hdecoded : ∃ data, TableStream.decode data = .ok metadata.tables := by
    unfold ofImage at h
    obtain ⟨_, -, h⟩ := Outcome.bind_eq_ok.mp h
    obtain ⟨_, -, h⟩ := Outcome.bind_eq_ok.mp h
    obtain ⟨_, -, h⟩ := Outcome.bind_eq_ok.mp h
    obtain ⟨_, -, h⟩ := Outcome.bind_eq_ok.mp h
    obtain ⟨_, -, h⟩ := Outcome.bind_eq_ok.mp h
    obtain ⟨_, -, h⟩ := Outcome.bind_eq_ok.mp h
    obtain ⟨stream?, -, h⟩ := Outcome.bind_eq_ok.mp h
    cases stream? with
    | none => cases h
    | some data =>
        obtain ⟨_, -, h⟩ := Outcome.bind_eq_ok.mp h
        obtain ⟨_, -, h⟩ := Outcome.bind_eq_ok.mp h
        obtain ⟨_, -, h⟩ := Outcome.bind_eq_ok.mp h
        obtain ⟨tables, htables, h⟩ := Outcome.bind_eq_ok.mp h
        dsimp only at h
        split at h
        all_goals
          obtain ⟨_, -, h⟩ := Outcome.bind_eq_ok.mp h
          cases h
          exact ⟨data, htables⟩
  obtain ⟨data, hdecode⟩ := hdecoded
  obtain ⟨_, hdata, -⟩ := TableStream.exists_sizes_of_decode hdecode
  exact ⟨data, hdecode, hdata ▸ hopened.tables.size_lt⟩

theorem indirect_of_direct {stream : TableStream} {pointers : TableId}
    (h : stream.rows pointers = 0) (rows : List Nat) :
    rows.mapM (stream.indirect pointers) = .ok rows := by
  rw [Outcome.mapM_eq_ok, List.forall₂_same]
  exact fun row _ => if_pos h

section Lists

variable {metadata : ImageMetadata} {data : Bytes} {column : Nat} {target pointers : TableId}
  (hdecode : TableStream.decode data = .ok metadata.tables)
  (hcolumn : column < TableId.typeDef.columns.length)
  (hascend : metadata.tables.ListsAscend .typeDef column target pointers)

include hdecode hcolumn hascend

theorem flatMap_listRows :
    (metadata.rows .typeDef).flatMap (metadata.tables.listRows .typeDef column target) =
      metadata.rows target := by
  have hle (row : Nat) (hone : 1 ≤ row) (hrow : row ≤ metadata.tables.rows .typeDef) :
      metadata.tables.listStart .typeDef column target row ≤
        metadata.tables.listStart .typeDef column target (row + 1) :=
    hascend.listStart_le_succ hdecode ⟨hone, hrow, hcolumn⟩
  have hranges := (TableStream.flatMap_ranges hle).1
  rw [TableStream.ListsAscend.listStart_last, hascend.listStart_one, Nat.add_sub_cancel] at hranges
  exact hranges

variable (hsize : data.size < UInt32.size)

include hsize

theorem listRange_of_ascend {row : Nat} (hrow : row ∈ metadata.rows .typeDef) :
    metadata.tables.listRange .typeDef row column target =
      .ok (metadata.tables.listStart .typeDef column target row,
        metadata.tables.listStart .typeDef column target (row + 1)) := by
  obtain ⟨hone, hlast⟩ := List.mem_range'_1.mp hrow
  have hcell : metadata.tables.HasCell .typeDef row column := ⟨hone, by omega, hcolumn⟩
  rw [TableStream.listRange_eq hdecode hsize hcell,
    Nat.max_eq_left (hascend.listStart_le_succ hdecode hcell)]

/-- The ranges of all types, one after another, are the rows of the target table. -/
theorem exists_ranges :
    ∃ ranges, (metadata.rows .typeDef).mapM
        (fun row => metadata.tables.listRange .typeDef row column target) = .ok ranges ∧
      (ranges.flatMap fun range => List.range' range.1 (range.2 - range.1)) =
        metadata.rows target := by
  refine ⟨_, Outcome.mapM_of_forall fun row hrow =>
    listRange_of_ascend hdecode hcolumn hascend hsize hrow, ?_⟩
  rw [List.flatMap_map]
  exact flatMap_listRows hdecode hcolumn hascend

theorem listedRows_of_ascend {row : Nat} (hrow : row ∈ metadata.rows .typeDef) :
    metadata.listedRows .typeDef row column target pointers =
      .ok (metadata.tables.listRows .typeDef column target row) := by
  rw [listedRows, listRange_of_ascend hdecode hcolumn hascend hsize hrow, Outcome.ok_bind]
  exact indirect_of_direct hascend.direct _

/-- The lists of all types, one after another, name the rows of the target table. -/
theorem flatMap_members {types : Array TypeDefinition} {members : TypeDefinition → List Token}
    (hcount : types.size = metadata.tables.rows .typeDef)
    (hlists : ∀ index type, types[index]? = some type → ∃ rows,
      metadata.listedRows .typeDef (index + 1) column target pointers = .ok rows ∧
      members type = (rows.filter fun r => 1 ≤ r ∧ r ≤ metadata.tables.rows target).map
        target.token) :
    types.toList.flatMap members = (metadata.rows target).map target.token := by
  have hrows := flatMap_listRows hdecode hcolumn hascend
  have hexist {row member : Nat} (hrow : row ∈ metadata.rows .typeDef)
      (hmember : member ∈ metadata.tables.listRows .typeDef column target row) :
      1 ≤ member ∧ member ≤ metadata.tables.rows target := by
    have hmem := List.mem_flatMap_of_mem hrow hmember
    rw [hrows] at hmem
    obtain ⟨hone, hlast⟩ := List.mem_range'_1.mp hmem
    exact ⟨hone, by omega⟩
  have hmembers : types.toList.map members = (metadata.rows .typeDef).map fun row =>
      (metadata.tables.listRows .typeDef column target row).map target.token := by
    refine List.ext_getElem (by simp [hcount, rows]) fun index hleft hright => ?_
    rw [List.length_map, Array.length_toList] at hleft
    have hrow : index + 1 ∈ metadata.rows .typeDef :=
      List.mem_range'_1.mpr ⟨Nat.le_add_left 1 index, by omega⟩
    obtain ⟨listed, hlisted, htokens⟩ :=
      hlists index types[index] (Array.getElem?_eq_getElem hleft)
    cases (listedRows_of_ascend hdecode hcolumn hascend hsize hrow).symm.trans hlisted
    rw [List.filter_eq_self.mpr fun member hmember => decide_eq_true (hexist hrow hmember)]
      at htokens
    simp only [List.getElem_map, Array.getElem_toList, rows, List.getElem_range', Nat.one_mul,
      Nat.add_comm 1 index]
    exact htokens
  rw [List.flatMap_def, hmembers, ← List.flatMap_def, ← hrows, List.map_flatMap]

end Lists

end ImageMetadata

namespace CodeModule

/-- A member stands in the list of one type, once, and is owned by this type. -/
def HasOneOwner (m : CodeModule) (members : TypeDefinition → List Token) (member owner : Token) :
    Prop :=
  ∃ (index : Nat) (type : TypeDefinition), m.types[index]? = some type ∧
    (members type).count member = 1 ∧ owner = type.token ∧
    ∀ (other : Nat) (listing : TypeDefinition), m.types[other]? = some listing →
      member ∈ members listing → other = index

section Owners

variable {metadata : ImageMetadata} {m : CodeModule} {members : TypeDefinition → List Token}
  {target : TableId} {owners : Array Token}
  (hlists : m.types.toList.flatMap members = (metadata.rows target).map target.token)
  (howners : ImageMetadata.ownersFromLists m.types members (metadata.tables.rows target) =
    .ok owners)

include hlists howners

/-- A member whose row no token can name would be listed as row 0, which has no owner. -/
theorem rows_lt_of_owners : metadata.tables.rows target < 0x1000000 := by
  refine Nat.lt_of_not_le fun hmany => ?_
  have hmem : target.token 0x1000000 ∈ m.types.toList.flatMap members := by
    rw [hlists]
    exact List.mem_map_of_mem (List.mem_range'_1.mpr ⟨by decide, by omega⟩)
  obtain ⟨type, htype, hlisted⟩ := List.mem_flatMap.mp hmem
  have hone := (ImageMetadata.foldlM_replaceAll_eq howners).1 type htype _ hlisted
  have hzero : (target.token 0x1000000).row = 0 := by
    unfold TableId.token Token.ofParts Token.row
    simp only [UInt32.toNat_ofNat']
    omega
  omega

theorem row_token {row : Nat} (hrow : row ∈ metadata.rows target) :
    (target.token row).row = row := by
  have hfit := rows_lt_of_owners hlists howners
  have hlast := (List.mem_range'_1.mp hrow).2
  exact Token.row_ofParts target.number row (by omega)

theorem token_row_of_listed {type : TypeDefinition} (htype : type ∈ m.types.toList) {token : Token}
    (hlisted : token ∈ members type) : target.token token.row = token := by
  have hmem := List.mem_flatMap_of_mem htype hlisted
  rw [hlists] at hmem
  obtain ⟨row, hrow, rfl⟩ := List.mem_map.mp hmem
  rw [row_token hlists howners hrow]

/-- No token is listed twice, as no row is. -/
theorem nodup_lists : (m.types.toList.flatMap members).Nodup := by
  rw [hlists]
  refine List.Nodup.map_on (fun row hrow other hother heq => ?_) (List.nodup_range' 1)
  rw [← row_token hlists howners hrow, ← row_token hlists howners hother, heq]

/-- A token stands in the list of one type only. -/
theorem index_eq_of_listed {index other : Nat} {type listing : TypeDefinition} {token : Token}
    (htype : m.types[index]? = some type) (hlisted : token ∈ members type)
    (hother : m.types[other]? = some listing) (hmember : token ∈ members listing) :
    other = index := by
  obtain ⟨hindex, rfl⟩ := Array.getElem?_eq_some_iff.mp htype
  obtain ⟨hlt, rfl⟩ := Array.getElem?_eq_some_iff.mp hother
  have hapart := List.pairwise_iff_getElem.mp
    (List.nodup_flatMap.mp (nodup_lists hlists howners)).2
  simp only [Array.length_toList, Array.getElem_toList] at hapart
  rcases Nat.lt_trichotomy other index with hbefore | hsame | hafter
  · exact absurd hlisted (hapart other index hlt hindex hbefore hmember)
  · exact hsame
  · exact absurd hmember (hapart index other hindex hlt hafter hlisted)

/-- The owner that is written down for a row is the type that lists it. -/
theorem owner_eq_of_listed {row index : Nat} (hrow : row ∈ metadata.rows target)
    {type : TypeDefinition} (htype : m.types[index]? = some type)
    (hlisted : target.token row ∈ members type) {owner : Token}
    (howner : ImageMetadata.ownerOf owners row = .ok owner) : owner = type.token := by
  obtain ⟨place, hplace, hitem⟩ := Outcome.bind_eq_ok.mp howner
  obtain ⟨-, rfl⟩ := Bounded.subtract_eq_iff.mp hplace
  have hpred : row - 1 + 1 = row := Nat.sub_add_cancel (List.mem_range'_1.mp hrow).1
  have hall (listing : TypeDefinition) (hlisting : listing ∈ m.types.toList)
      (hplaced : row - 1 + 1 ∈ (members listing).map Token.row) : listing.token = type.token := by
    obtain ⟨token, htoken, heq⟩ := List.mem_map.mp hplaced
    obtain ⟨other, hother⟩ := Array.mem_iff_getElem?.mp (Array.mem_toList_iff.mp hlisting)
    rw [← token_row_of_listed hlists howners hlisting htoken, heq, hpred] at htoken
    cases index_eq_of_listed hlists howners htype hlisted hother htoken
    cases htype.symm.trans hother
    rfl
  have hmem : type ∈ m.types.toList :=
    Array.mem_toList_iff.mpr (Array.mem_of_getElem? htype)
  have hsome : row - 1 + 1 ∈ (members type).map Token.row :=
    List.mem_map.mpr ⟨_, hlisted, by rw [row_token hlists howners hrow, hpred]⟩
  have hwritten := (ImageMetadata.foldlM_replaceAll_eq howners).2 (row - 1) type.token hall
    (.inr ⟨type, hmem, hsome⟩)
  exact Option.some.inj ((Bounded.item_eq_iff.mp hitem).symm.trans hwritten)

/-- If the lists of all types name the rows one after another, the owner that is written down for
a row is the one type that lists it. -/
theorem hasOneOwner_of_lists {row : Nat} (hrow : row ∈ metadata.rows target) {owner : Token}
    (howner : ImageMetadata.ownerOf owners row = .ok owner) :
    m.HasOneOwner members (target.token row) owner := by
  have hmem : target.token row ∈ m.types.toList.flatMap members := by
    rw [hlists]
    exact List.mem_map_of_mem hrow
  obtain ⟨type, htype, hlisted⟩ := List.mem_flatMap.mp hmem
  obtain ⟨index, hat⟩ := Array.mem_iff_getElem?.mp (Array.mem_toList_iff.mp htype)
  have honce := (List.nodup_flatMap.mp (nodup_lists hlists howners)).1 type htype
  exact ⟨index, type, hat, List.count_eq_one_of_mem honce hlisted,
    owner_eq_of_listed hlists howners hrow hat hlisted howner,
    fun _ _ => index_eq_of_listed hlists howners hat hlisted⟩

end Owners

/-- The ranges that types start in a list column are, one after another, the rows of the target
table; the members of these rows, which say who declares them, have one owner each. -/
structure OwnedByLists (m : CodeModule) (metadata : ImageMetadata) (column : Nat)
    (target : TableId) (members : TypeDefinition → List Token) (declared : List (Token × Token)) :
    Prop where
  ranges : ∃ ranges, (metadata.rows .typeDef).mapM
      (fun row => metadata.tables.listRange .typeDef row column target) = .ok ranges ∧
    (ranges.flatMap fun range => List.range' range.1 (range.2 - range.1)) = metadata.rows target
  tokens : declared.map Prod.fst = (metadata.rows target).map target.token
  owners : ∀ member owner, (member, owner) ∈ declared → m.HasOneOwner members member owner

/-- Members that are read with owners from ascending lists have one owner each. -/
theorem ownedByLists_of_ascend {metadata : ImageMetadata} {m : CodeModule} {data : Bytes}
    {column : Nat} {target pointers : TableId} {members : TypeDefinition → List Token}
    {owners : Array Token} {declared : List (Token × Token)}
    (hdecode : TableStream.decode data = .ok metadata.tables) (hsize : data.size < UInt32.size)
    (hcolumn : column < TableId.typeDef.columns.length)
    (hascend : metadata.tables.ListsAscend .typeDef column target pointers)
    (hcount : m.types.size = metadata.tables.rows .typeDef)
    (hlists : ∀ index type, m.types[index]? = some type → ∃ rows,
      metadata.listedRows .typeDef (index + 1) column target pointers = .ok rows ∧
      members type = (rows.filter fun r => 1 ≤ r ∧ r ≤ metadata.tables.rows target).map
        target.token)
    (howners : ImageMetadata.ownersFromLists m.types members (metadata.tables.rows target) =
      .ok owners)
    (hlength : declared.length = metadata.tables.rows target)
    (hread : ∀ index member owner, declared[index]? = some (member, owner) →
      member = target.token (index + 1) ∧ ImageMetadata.ownerOf owners (index + 1) = .ok owner) :
    m.OwnedByLists metadata column target members declared := by
  have hflat := ImageMetadata.flatMap_members hdecode hcolumn hascend hsize hcount hlists
  refine ⟨ImageMetadata.exists_ranges hdecode hcolumn hascend hsize, ?_, ?_⟩
  · refine List.ext_getElem (by simp [hlength, ImageMetadata.rows]) fun index hleft hright => ?_
    rw [List.length_map] at hleft
    obtain ⟨htoken, -⟩ := hread index declared[index].1 declared[index].2
      (List.getElem?_eq_getElem hleft)
    simp only [List.getElem_map, ImageMetadata.rows, List.getElem_range', Nat.one_mul,
      Nat.add_comm 1 index]
    exact htoken
  · intro member owner hmem
    obtain ⟨index, hindex, hat⟩ := List.mem_iff_getElem.mp hmem
    obtain ⟨rfl, howner⟩ := hread index member owner (by rw [List.getElem?_eq_getElem hindex, hat])
    exact hasOneOwner_of_lists hflat howners
      (List.mem_range'_1.mpr ⟨Nat.le_add_left 1 index, by omega⟩) howner

/-- In every image the lists that a column starts lie in the target table, whatever the column
holds. If the lists of fields ascend and the image loads, the ranges of all types are the rows of
the fields, and every field stands in the list of one type, once, and is declared by this type; and
so it is with methods. -/
theorem members_have_one_owner {image : Image} {metadata : ImageMetadata}
    (hmetadata : ImageMetadata.ofImage image = .ok metadata) :
    (∀ table row column target, metadata.tables.HasCell table row column →
      ∃ start stop, metadata.tables.listRange table row column target = .ok (start, stop) ∧
        start ≤ stop ∧ stop ≤ metadata.tables.rows target + 1) ∧
    ∀ name m, ofImage image name = .ok m →
      (metadata.tables.ListsAscend .typeDef 4 .field .fieldPtr →
        m.OwnedByLists metadata 4 .field TypeDefinition.fields
          (m.fields.toList.map fun field => (field.token, field.declaringType))) ∧
      (metadata.tables.ListsAscend .typeDef 5 .methodDef .methodPtr →
        m.OwnedByLists metadata 5 .methodDef TypeDefinition.methods
          (m.methods.toList.map fun method => (method.token, method.declaringType))) := by
  obtain ⟨data, hdecode, hsize⟩ := ImageMetadata.exists_tables hmetadata
  refine ⟨fun table row column target hcell =>
    TableStream.exists_listRange hdecode hsize hcell target, fun name m hload => ?_⟩
  obtain ⟨loaded, hloaded, hmodule⟩ := Outcome.bind_eq_ok.mp hload
  cases hmetadata.symm.trans hloaded
  obtain ⟨hcount, hlists⟩ := ImageMetadata.toModule_lists hmodule
  obtain ⟨scope, generics, -, hread⟩ := ImageMetadata.exists_moduleRead hmodule
  refine ⟨fun hascend => ?_, fun hascend => ?_⟩
  · obtain ⟨owners, howners, hfieldsSize, hfields⟩ := hread.fields
    refine ownedByLists_of_ascend hdecode hsize (by decide) hascend hcount ?_ howners
      (by rw [List.length_map, Array.length_toList, hfieldsSize]) ?_
    · intro index type htype
      obtain ⟨rows, _, hrows, -, htokens, -⟩ := hlists index type htype
      exact ⟨rows, hrows, htokens⟩
    · intro index member owner hat
      rw [List.getElem?_map, Array.getElem?_toList] at hat
      obtain ⟨field, hfield, hpair⟩ := Option.map_eq_some_iff.mp hat
      cases hpair
      exact ⟨(hfields index field hfield).token, (hfields index field hfield).owner⟩
  · obtain ⟨owners, howners, hmethodsSize, hmethods⟩ := hread.methods
    refine ownedByLists_of_ascend hdecode hsize (by decide) hascend hcount ?_ howners
      (by rw [List.length_map, Array.length_toList, hmethodsSize]) ?_
    · intro index type htype
      obtain ⟨_, rows, -, hrows, -, htokens⟩ := hlists index type htype
      exact ⟨rows, hrows, htokens⟩
    · intro index member owner hat
      rw [List.getElem?_map, Array.getElem?_toList] at hat
      obtain ⟨method, hmethod, hpair⟩ := Option.map_eq_some_iff.mp hat
      cases hpair
      exact ⟨(hmethods index method hmethod).token, (hmethods index method hmethod).owner⟩

/-- Three types with two fields and three methods: one type has no field, one no method, and the
last list ends where the table does. -/
def membersDraft : ImageDraft where
  strings := [0]
  blobs := [0]
  rows
    | .typeDef => [[0, 0, 0, 0, 1, 1], [0, 0, 0, 0, 1, 2], [0, 0, 0, 0, 3, 2]]
    | .field => List.replicate 2 [0, 0, 0]
    | .methodDef => List.replicate 3 [0, 0, 0, 0, 0, 1]
    | _ => []
  mvid := Vector.replicate 16 0
  entryPoint := 0

theorem membersDraft_fits : membersDraft.Fits := .of_all (by decide +kernel) (by decide +kernel)

theorem members_have_one_owner_three_types :
    ∃ metadata m, ImageMetadata.ofImage (membersDraft.image membersDraft.headers) = .ok metadata ∧
      ofImage (membersDraft.image membersDraft.headers) "" = .ok m ∧
      metadata.tables.HasCell .typeDef 3 5 ∧
      metadata.tables.ListsAscend .typeDef 4 .field .fieldPtr ∧
      metadata.tables.ListsAscend .typeDef 5 .methodDef .methodPtr ∧
      m.OwnedByLists metadata 4 .field TypeDefinition.fields
        (m.fields.toList.map fun field => (field.token, field.declaringType)) ∧
      m.OwnedByLists metadata 5 .methodDef TypeDefinition.methods
        (m.methods.toList.map fun method => (method.token, method.declaringType)) ∧
      m.fields.toList.map (·.declaringType.row) = [2, 2] ∧
      m.methods.toList.map (·.declaringType.row) = [1, 3, 3] := by
  have hopens : ((TableStream.decode membersDraft.tableStream.toArray).map
      (membersDraft.opened membersDraft.headers)).toOption.any fun metadata =>
        decide (metadata.tables.rows .typeDef = 3 ∧
          metadata.tables.ListsAscend .typeDef 4 .field .fieldPtr ∧
          metadata.tables.ListsAscend .typeDef 5 .methodDef .methodPtr) &&
        (metadata.toModule "").toOption.any fun m =>
          m.fields.toList.map (·.declaringType.row) == [2, 2] &&
            m.methods.toList.map (·.declaringType.row) == [1, 3, 3] := by
    decide +kernel
  obtain ⟨metadata, hmetadata, hchecks⟩ := Outcome.exists_of_any hopens
  obtain ⟨htables, hloads⟩ := Bool.and_eq_true_iff.mp hchecks
  obtain ⟨hrows, hfields, hmethods⟩ := of_decide_eq_true htables
  obtain ⟨m, hm, howners⟩ := Outcome.exists_of_any hloads
  obtain ⟨hfieldOwners, hmethodOwners⟩ := Bool.and_eq_true_iff.mp howners
  have himage := (ImageDraft.ofImage_eq membersDraft_fits
    (ImageDraft.length_headers membersDraft)).trans hmetadata
  have hload : ofImage (membersDraft.image membersDraft.headers) "" = .ok m := by
    rw [ofImage, himage]
    exact hm
  obtain ⟨-, howned⟩ := members_have_one_owner himage
  obtain ⟨hownedFields, hownedMethods⟩ := howned "" m hload
  exact ⟨metadata, m, himage, hload, ⟨by decide, Nat.le_of_eq hrows.symm, by decide⟩, hfields,
    hmethods, hownedFields hfields, hownedMethods hmethods, beq_iff_eq.mp hfieldOwners,
    beq_iff_eq.mp hmethodOwners⟩

end CodeModule
end AssemblyBrowser
