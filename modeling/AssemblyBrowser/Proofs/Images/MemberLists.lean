import AssemblyBrowser.Proofs.Images.Rows

/-!
# Lists of members are read back

A row says where the list of its members begins, and the next row where it ends.
The loader asks for the members of an item in this way, and gives every member
the owner whose list it stands in.
-/

namespace AssemblyBrowser
namespace ImageDraft

variable {metadata : ImageMetadata} {draft : ImageDraft}

/-!
## Ranges
-/

section Ranges

variable {α β : Type} {members : α → List β} {items : List α} {item : α}
  {table target : TableId} {row column : Nat}

/-- The rows of a table begin the lists of members that stand in another table. -/
structure ListsMembers (metadata : ImageMetadata) (table target : TableId) (column : Nat)
    (members : α → List β) (items : List α) : Prop where
  rows : metadata.tables.rows table = items.length
  rows_lt : items.length < UInt32.size
  target : metadata.tables.rows target = memberCount members items
  target_lt : memberCount members items < 0x10000
  first : ∀ row item, itemAt? items row = some item →
    metadata.tables.value table row column = .ok (firstRow members items row)

theorem ListsMembers.listRange (h : ListsMembers metadata table target column members items)
    (hitem : itemAt? items row = some item) :
    metadata.tables.listRange table row column target =
      .ok (firstRow members items row, firstRow members items row + (members item).length) := by
  have hbounds := itemAt?_le hitem
  have hword : UInt32.size = 0x100000000 := rfl
  have hrows := h.rows_lt
  have htarget := h.target_lt
  have hfirst := firstRow_le members items row
  have hnext := firstRow_le members items (row + 1)
  rw [firstRow_succ hitem] at hnext
  have hstop : Bounded.add UInt32.size (memberCount members items) 1 =
      .ok (memberCount members items + 1) := Bounded.add_eq_ok (by omega)
  unfold TableStream.listRange
  rw [h.target, hstop, Outcome.ok_bind, h.first row item hitem, Outcome.ok_bind, h.rows,
    Nat.min_eq_left hfirst]
  split
  case isTrue hlast =>
    obtain ⟨following, hfollowing⟩ : ∃ following, itemAt? items (row + 1) = some following :=
      exists_itemAt? (Nat.le_add_left 1 row) hlast
    have hrow : Bounded.add UInt32.size row 1 = .ok (row + 1) := Bounded.add_eq_ok (by omega)
    rw [hrow, Outcome.ok_bind, h.first (row + 1) following hfollowing, Outcome.ok_bind,
      firstRow_succ hitem, Nat.min_eq_left hnext]
    exact congrArg (fun stop => Except.ok (_, stop)) (Nat.max_eq_left (Nat.le_add_right _ _))
  case isFalse hlast =>
    have hend := firstRow_length_succ members items
    rw [show items.length = row by omega, firstRow_succ hitem] at hend
    rw [← hend]
    exact congrArg (fun stop => Except.ok (_, stop)) (Nat.max_eq_left (Nat.le_add_right _ _))

theorem ListsMembers.listedRows (h : ListsMembers metadata table target column members items)
    {pointers : TableId} (hpointers : metadata.tables.rows pointers = 0)
    (hitem : itemAt? items row = some item) :
    metadata.listedRows table row column target pointers =
      .ok (memberRows members items item row) := by
  have hdirect : (memberRows members items item row).mapM (metadata.tables.indirect pointers) =
      .ok ((memberRows members items item row).map id) :=
    Outcome.mapM_of_forall fun member _ => if_pos hpointers
  unfold ImageMetadata.listedRows
  rw [h.listRange hitem, Outcome.ok_bind]
  dsimp only
  rw [Nat.add_sub_cancel_left]
  rwa [List.map_id] at hdirect

/-- A table whose rows encode items lists their members if every row has a cell for the first of
them, with room in two bytes. -/
theorem listsMembers_of_written {draft : ImageDraft} (holds : Holds metadata draft)
    {form : Nat → α → List Nat → Prop} (hwritten : Written (draft.rows table) form items)
    (htarget : (draft.rows target).length = memberCount members items)
    (hcolumn : Column.row target ∈ table.columns)
    (hcell : ∀ row item cells, form row item cells →
      cells[column]? = some (firstRow members items row)) :
    ListsMembers metadata table target column members items where
  rows := by rw [holds.rows, hwritten.length_eq]
  rows_lt := by
    rw [← hwritten.length_eq]
    exact holds.fits.rowCount_lt table
  target := by rw [holds.rows, htarget]
  target_lt := by
    by_cases hnone : draft.rows table = []
    · have hlength := hwritten.length_eq
      rw [hnone] at hlength
      rw [List.length_eq_zero_iff.mp hlength.symm, memberCount_nil]
      decide
    · rw [← htarget]
      exact holds.rows_lt_of_row hnone hcolumn
  first row item hitem := by
    obtain ⟨cells, hcells, hform⟩ := hwritten.exists_cells hitem
    exact (holds.rowHolds (itemAt?_le hitem).1 hcells).value (hcell row item cells hform)

end Ranges

/-!
## Owners
-/

/-- To put an owner in the place of every listed row is to own the rows. -/
theorem foldlM_replace (table : TableId) (owner : Token) {rows : List Nat} {owners : Array Token}
    (hrows : ∀ row ∈ rows, 1 ≤ row ∧ row ≤ owners.size) (hsize : owners.size < 0x1000000) :
    (rows.map table.token).foldlM (fun owners (m : Token) => do
        Bounded.replace owners (← Bounded.subtract m.row 1) owner) owners =
      .ok (ImageMetadata.ownListed owners (owner, rows)) := by
  induction rows generalizing owners with
  | nil => rfl
  | cons first rest ih =>
      have hfirst := hrows first List.mem_cons_self
      have hrow : (table.token first).row = first := Token.row_ofParts _ _ (by omega)
      have hplace : first - 1 < owners.size := by omega
      have hset : owners.setIfInBounds (first - 1) owner = owners.set (first - 1) owner hplace := by
        rw [Array.setIfInBounds, dif_pos hplace]
      have hrest := @ih (owners.setIfInBounds (first - 1) owner)
        (fun row hmem => by
          rw [Array.size_setIfInBounds]
          exact hrows row (List.mem_cons_of_mem _ hmem))
        (by rwa [Array.size_setIfInBounds])
      rw [List.map_cons, List.foldlM_cons, hrow, Bounded.subtract_eq_ok hfirst.1, Outcome.ok_bind,
        Bounded.replace_eq_ok hplace, Outcome.ok_bind, ← hset, hrest]
      unfold ImageMetadata.ownListed
      rw [List.foldl_cons, if_neg (by omega)]

theorem size_ownListed (owners : Array Token) (listed : Token × List Nat) :
    (ImageMetadata.ownListed owners listed).size = owners.size := by
  unfold ImageMetadata.ownListed
  induction listed.2 generalizing owners with
  | nil => rfl
  | cons first rest ih =>
      rw [List.foldl_cons, ih]
      split
      · rfl
      · exact Array.size_setIfInBounds

/-- Types own the rows that they list, one type after another. -/
theorem foldlM_owners {table : TableId} {listed : TypeDefinition → List Token}
    {entries : List (TypeDefinition × List Nat)} {owners : Array Token}
    (hlisted : ∀ entry ∈ entries, listed entry.1 = entry.2.map table.token)
    (hrows : ∀ entry ∈ entries, ∀ row ∈ entry.2, 1 ≤ row ∧ row ≤ owners.size)
    (hsize : owners.size < 0x1000000) :
    (entries.map Prod.fst).foldlM (fun owners type =>
        (listed type).foldlM (fun owners (m : Token) => do
          Bounded.replace owners (← Bounded.subtract m.row 1) type.token) owners) owners =
      .ok ((entries.map fun entry => (entry.1.token, entry.2)).foldl ImageMetadata.ownListed
        owners) := by
  induction entries generalizing owners with
  | nil => rfl
  | cons first rest ih =>
      have hfirst := foldlM_replace table first.1.token (hrows first List.mem_cons_self) hsize
      have hrest := @ih (ImageMetadata.ownListed owners (first.1.token, first.2))
        (fun entry hmem => hlisted entry (List.mem_cons_of_mem _ hmem))
        (fun entry hmem => by
          rw [size_ownListed]
          exact hrows entry (List.mem_cons_of_mem _ hmem))
        (by rwa [size_ownListed])
      rw [List.map_cons, List.foldlM_cons, hlisted first List.mem_cons_self, hfirst,
        Outcome.ok_bind, hrest]
      rfl

section Owners

variable {α β : Type} {members : α → List β} {items : List α} {table : TableId}

/-- Types that list the members of their items own them. -/
theorem ownersFromLists_eq {type : α → Nat → TypeDefinition}
    {listed : TypeDefinition → List Token}
    (hlisted : ∀ row item, itemAt? items row = some item →
      listed (type item row) = (memberRows members items item row).map table.token)
    (hsmall : memberCount members items < 0x10000) :
    ImageMetadata.ownersFromLists ((numbered items).map fun (item, row) => type item row).toArray
        listed (memberCount members items) =
      .ok ((numbered items).flatMap fun (item, row) =>
        List.replicate (members item).length (type item row).token).toArray := by
  let entry (item : α × Nat) : TypeDefinition × List Nat :=
    (type item.1 item.2, memberRows members items item.1 item.2)
  have hsize : (Array.replicate (memberCount members items) Token.zero).size =
      memberCount members items := Array.size_replicate
  have hentry : ∀ other ∈ (numbered items).map entry,
      ∃ item row, itemAt? items row = some item ∧ other = entry (item, row) := by
    intro other hmem
    obtain ⟨⟨item, row⟩, hitem, rfl⟩ := List.mem_map.mp hmem
    exact ⟨item, row, mem_numbered.mp hitem, rfl⟩
  have hfold := @foldlM_owners table listed ((numbered items).map entry)
    (Array.replicate (memberCount members items) Token.zero)
    (fun other hmem => by
      obtain ⟨item, row, hitem, rfl⟩ := hentry other hmem
      exact hlisted row item hitem)
    (fun other hmem member hmember => by
      obtain ⟨item, row, hitem, rfl⟩ := hentry other hmem
      rw [hsize]
      exact memberRows_le hitem hmember)
    (by omega)
  rw [List.map_map, List.map_map] at hfold
  unfold ImageMetadata.ownersFromLists
  rw [List.toList_toArray]
  exact hfold.trans
    (congrArg Except.ok (owners_eq (fun item row => (type item row).token) Token.zero items))

variable {metadata : ImageMetadata} {draft : ImageDraft} {map target pointers : TableId}
  {form : Nat → α → List Nat → Prop}

/-- A table of lists says who owns their members. -/
theorem ownersFromMap_eq (holds : Holds metadata draft)
    (hwritten : Written (draft.rows map) form items)
    (hlists : ListsMembers metadata map target 1 members items)
    (hpointers : metadata.tables.rows pointers = 0) {owner : α → Nat}
    (howner : ∀ row item cells, form row item cells → cells[0]? = some (owner item)) :
    metadata.ownersFromMap map target pointers =
      .ok ((numbered items).flatMap fun (item, _) =>
        List.replicate (members item).length (TableId.typeDef.token (owner item))).toArray := by
  have hread := @mapM_written metadata draft _ _ map items form holds hwritten
    (fun row => do
      let type ← metadata.tables.value map row 0
      let members ← metadata.listedRows map row 1 target pointers
      return (TableId.typeDef.token type, members))
    (fun item row => (TableId.typeDef.token (owner item), memberRows members items item row))
    (fun row item cells hitem hform hrow => by
      rw [hrow.value (howner row item cells hform), Outcome.ok_bind,
        hlists.listedRows hpointers hitem]
      rfl)
  unfold ImageMetadata.ownersFromMap
  rw [hread, Outcome.ok_bind, hlists.target]
  exact congrArg Except.ok
    (owners_eq (fun item _ => TableId.typeDef.token (owner item)) Token.zero items)

end Owners

/-- A row has the owner that stands in its place. -/
theorem ownerOf_eq {owners : List Token} {row : Nat} {owner : Token}
    (h : itemAt? owners row = some owner) :
    ImageMetadata.ownerOf owners.toArray row = .ok owner := by
  obtain ⟨hone, hat⟩ := itemAt?_eq_some.mp h
  unfold ImageMetadata.ownerOf
  rw [Bounded.subtract_eq_ok hone, Outcome.ok_bind, Bounded.item_eq_iff, List.getElem?_toArray]
  exact hat

end ImageDraft
end AssemblyBrowser
