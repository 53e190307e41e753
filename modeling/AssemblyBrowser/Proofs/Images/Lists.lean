import AssemblyBrowser.Proofs.Images.Descriptions

/-!
# Items and their members

Items stand in rows, and so do the members of all items, one item's after those
of the item before. So every item has a range of rows for its members, and every
row of a member has an owner.
-/

namespace AssemblyBrowser

/-!
## Numbered items
-/

section Rows

variable {α β γ : Type} {items : List α} {item : α} {row : Nat}

theorem mem_numbered : (item, row) ∈ numbered items ↔ itemAt? items row = some item := by
  unfold numbered itemAt?
  rw [List.mem_zipIdx_iff_le_and_getElem?_sub]
  split
  case isTrue hzero =>
    simp only [hzero, reduceCtorEq, iff_false, not_and]
    omega
  case isFalse hzero =>
    simp only [and_iff_right_iff_imp]
    omega

theorem itemAt?_eq_some :
    itemAt? items row = some item ↔ 1 ≤ row ∧ items[row - 1]? = some item := by
  unfold itemAt?
  split
  case isTrue hzero => simp [hzero]
  case isFalse hzero =>
    simp only [iff_and_self]
    omega

theorem itemAt?_le (h : itemAt? items row = some item) : 1 ≤ row ∧ row ≤ items.length := by
  obtain ⟨hone, hat⟩ := itemAt?_eq_some.mp h
  have hlt := (List.getElem?_eq_some_iff.mp hat).1
  omega

theorem exists_itemAt? (hone : 1 ≤ row) (hle : row ≤ items.length) :
    ∃ item, itemAt? items row = some item :=
  ⟨items[row - 1], itemAt?_eq_some.mpr ⟨hone, List.getElem?_eq_getElem (by omega)⟩⟩

theorem itemAt?_mem (h : itemAt? items row = some item) : item ∈ items :=
  List.mem_of_getElem? (itemAt?_eq_some.mp h).2

theorem itemAt?_map (f : α → β) : itemAt? (items.map f) row = (itemAt? items row).map f := by
  unfold itemAt?
  split
  · rfl
  · exact List.getElem?_map

theorem map_snd_numbered (items : List α) :
    (numbered items).map Prod.snd = List.range' 1 items.length :=
  List.zipIdx_map_snd 1 items

theorem map_fst_numbered (items : List α) : (numbered items).map Prod.fst = items :=
  List.zipIdx_map_fst 1 items

theorem map_item_numbered (f : α → β) (items : List α) :
    (numbered items).map (fun (item, _) => f item) = items.map f := by
  rw [← map_fst_numbered items, List.map_map, map_fst_numbered]
  rfl

theorem map_row_numbered (f : Nat → β) (items : List α) :
    (numbered items).map (fun (_, row) => f row) = (List.range' 1 items.length).map f := by
  rw [← map_snd_numbered, List.map_map]
  rfl

theorem length_numbered (items : List α) : (numbered items).length = items.length :=
  List.length_zipIdx

/-- An item stands behind its row among the numbered ones, too. -/
theorem itemAt?_numbered : itemAt? (numbered items) row = (itemAt? items row).map (·, row) := by
  unfold itemAt? numbered
  split
  · rfl
  · rw [List.getElem?_zipIdx, Nat.add_comm, Nat.sub_add_cancel (by omega)]

/-- What is done at every place of a list of rows is done for every row. -/
theorem mapIdx_numbered {f : α → Nat → β} {g : Nat → β → γ} {k : α → Nat → γ}
    (h : ∀ index item, itemAt? items (index + 1) = some item →
      g index (f item (index + 1)) = k item (index + 1)) :
    ((numbered items).map fun (item, row) => f item row).mapIdx g =
      (numbered items).map fun (item, row) => k item row := by
  refine List.ext_getElem? fun index => ?_
  rw [List.getElem?_mapIdx, List.getElem?_map, List.getElem?_map, numbered, List.getElem?_zipIdx,
    Nat.add_comm 1 index]
  cases hitem : items[index]? with
  | none => rfl
  | some item =>
      exact congrArg some (h index item (itemAt?_eq_some.mpr ⟨Nat.le_add_left 1 index, hitem⟩))

/-- What is done to one row is done to the item there. -/
theorem modify_numbered {f : α → Nat → β} {g : β → β} {k : α → Nat → β} {place : Nat}
    (hplace : 1 ≤ place)
    (h : ∀ row item, itemAt? items row = some item →
      (if place = row then g (f item row) else f item row) = k item row) :
    ((numbered items).map fun (item, row) => f item row).modify (place - 1) g =
      (numbered items).map fun (item, row) => k item row := by
  refine List.ext_getElem? fun index => ?_
  rw [List.getElem?_modify, List.getElem?_map, List.getElem?_map, numbered, List.getElem?_zipIdx,
    Nat.add_comm 1 index]
  cases hitem : items[index]? with
  | none => rfl
  | some item =>
      have hrow := h (index + 1) item (itemAt?_eq_some.mpr ⟨Nat.le_add_left 1 index, hitem⟩)
      have hsame : place - 1 = index ↔ place = index + 1 := by omega
      simp only [Option.map_eq_map, Option.map_some, hsame, hrow]

/-- A list in which a key has one value at most tells the value. -/
theorem lookup_eq {κ : Type} [BEq κ] [LawfulBEq κ] {entries : List (κ × β)} {key : κ}
    {expected : Option β}
    (h : ∀ value, (key, value) ∈ entries ↔ expected = some value) :
    entries.lookup key = expected := by
  cases hfound : entries.lookup key with
  | none =>
      cases hexpected : expected with
      | none => rfl
      | some value =>
          have hne := List.lookup_eq_none_iff.mp hfound _ ((h value).mpr hexpected)
          rw [bne_self_eq_false] at hne
          cases hne
  | some value =>
      obtain ⟨before, after, hentries, -⟩ := List.lookup_eq_some_iff.mp hfound
      refine ((h value).mp ?_).symm
      rw [hentries]
      exact List.mem_append_right _ List.mem_cons_self

/-- The values that some items have, by the rows of the items, in any order. -/
theorem lookup_of_perm {value : α → Option β} {items : List α} {entries : List (Nat × β)}
    (h : entries.Perm ((numbered items).filterMap fun (item, row) => (value item).map (row, ·)))
    (row : Nat) : entries.reverse.lookup row = (itemAt? items row).bind value := by
  refine lookup_eq fun found => ?_
  rw [List.mem_reverse, h.mem_iff, List.mem_filterMap]
  constructor
  · rintro ⟨⟨item, place⟩, hitem, hvalue⟩
    obtain ⟨_, hfound, heq⟩ := Option.map_eq_some_iff.mp hvalue
    cases heq
    rw [mem_numbered.mp hitem]
    exact hfound
  · intro hfound
    obtain ⟨item, hitem, hvalue⟩ := Option.bind_eq_some_iff.mp hfound
    refine ⟨(item, row), mem_numbered.mpr hitem, ?_⟩
    dsimp only
    rw [hvalue, Option.map_some]

end Rows

/-!
## Ranges of members
-/

section Members

variable {α β : Type} {members : α → List β} {items : List α} {item : α} {row : Nat}

theorem memberCount_nil : memberCount members [] = 0 := rfl

theorem memberCount_cons (first : α) (rest : List α) :
    memberCount members (first :: rest) = (members first).length + memberCount members rest := by
  rw [memberCount, List.map_cons, List.sum_cons]
  rfl

theorem memberCount_append (front back : List α) :
    memberCount members (front ++ back) = memberCount members front + memberCount members back := by
  rw [memberCount, List.map_append, List.sum_append_nat]
  rfl

theorem length_flatMap_members (items : List α) :
    (items.flatMap members).length = memberCount members items := List.length_flatMap

theorem length_owned (members : α → List β) (items : List α) :
    (owned members items).length = memberCount members items := by
  rw [owned, List.length_flatMap, memberCount,
    ← map_item_numbered (fun item => (members item).length)]
  exact congrArg List.sum (List.map_congr_left fun _ _ => List.length_map _)

/-- The list of items around one of them. -/
theorem split_at (h : itemAt? items row = some item) :
    items = items.take (row - 1) ++ item :: items.drop row := by
  obtain ⟨hone, hat⟩ := itemAt?_eq_some.mp h
  obtain ⟨hlt, rfl⟩ := List.getElem?_eq_some_iff.mp hat
  have hrest : items.drop (row - 1) = items[row - 1] :: items.drop row := by
    rw [List.drop_eq_getElem_cons hlt, Nat.sub_add_cancel hone]
  rw [← hrest, List.take_append_drop]

/-- The members of the next item stand behind the members of an item. -/
theorem firstRow_succ (h : itemAt? items row = some item) :
    firstRow members items (row + 1) = firstRow members items row + (members item).length := by
  obtain ⟨hone, hat⟩ := itemAt?_eq_some.mp h
  have htake : items.take row = items.take (row - 1) ++ [item] := by
    rw [← Nat.sub_add_cancel hone, List.take_add_one, Nat.add_sub_cancel, hat]
    rfl
  rw [firstRow, Nat.add_sub_cancel, htake, memberCount_append, memberCount_cons, memberCount_nil,
    firstRow]
  omega

theorem firstRow_le (members : α → List β) (items : List α) (row : Nat) :
    firstRow members items row ≤ memberCount members items + 1 := by
  have hsplit := congrArg (memberCount members) (List.take_append_drop (row - 1) items)
  rw [memberCount_append] at hsplit
  rw [firstRow]
  omega

theorem firstRow_length_succ (members : α → List β) (items : List α) :
    firstRow members items (items.length + 1) = memberCount members items + 1 := by
  rw [firstRow, Nat.add_sub_cancel, List.take_length]

/-- A member of an item stands in its row among all members. -/
theorem itemAt?_flatMap (h : itemAt? items row = some item) {index : Nat}
    (hindex : index < (members item).length) :
    itemAt? (items.flatMap members) (firstRow members items row + index) =
      (members item)[index]? := by
  have hplace : firstRow members items row + index - 1 =
      ((items.take (row - 1)).flatMap members).length + index := by
    rw [length_flatMap_members, firstRow]
    omega
  have hmembers : items.flatMap members = (items.take (row - 1)).flatMap members ++
      (members item ++ (items.drop row).flatMap members) := by
    rw [← List.flatMap_cons, ← List.flatMap_append, ← split_at h]
  unfold itemAt?
  rw [if_neg (by rw [firstRow]; omega), hplace, hmembers,
    List.getElem?_append_right (Nat.le_add_right _ _), Nat.add_sub_cancel_left,
    List.getElem?_append_left hindex]

theorem memberRows_le (h : itemAt? items row = some item) {member : Nat}
    (hmember : member ∈ memberRows members items item row) :
    1 ≤ member ∧ member ≤ memberCount members items := by
  have hstop := firstRow_le members items (row + 1)
  rw [firstRow_succ h] at hstop
  rw [memberRows, List.mem_range'_1] at hmember
  have hstart : 1 ≤ firstRow members items row := Nat.le_add_left 1 _
  omega

theorem owned_eq_append (h : itemAt? items row = some item) :
    owned members items = (owned members (items.take (row - 1)) ++
      ((members item).map (row, ·) ++
        ((items.drop row).zipIdx (row + 1)).flatMap fun (item, row) =>
          (members item).map (row, ·))) := by
  obtain ⟨hone, hlt⟩ := itemAt?_le h
  have hlength : 1 + (items.take (row - 1)).length = row := by
    rw [List.length_take]
    omega
  unfold owned numbered
  conv => lhs; rw [split_at h, List.zipIdx_append, hlength, List.zipIdx_cons]
  rw [List.flatMap_append, List.flatMap_cons]

theorem filter_owned_of_ne {others : List (α × Nat)} (h : ∀ other ∈ others, other.2 ≠ row)
    (place : Nat) :
    ((others.flatMap fun (item, row) => (members item).map (row, ·)).zipIdx place).filter
      (fun ((owner, _), _) => owner == row) = [] := by
  refine List.filter_eq_nil_iff.mpr ?_
  rintro ⟨⟨owner, member⟩, index⟩ hmem
  obtain ⟨other, hother, hmember⟩ := List.mem_flatMap.mp (List.fst_mem_of_mem_zipIdx hmem)
  obtain ⟨_, -, heq⟩ := List.mem_map.mp hmember
  cases heq
  rw [beq_iff_eq]
  exact h other hother

/-- The members of an item are those that it owns. -/
theorem rows_filter_owned (h : itemAt? items row = some item) :
    ((numbered (owned members items)).filter fun ((owner, _), _) => owner == row).map Prod.snd =
      memberRows members items item row := by
  have hfront (place : Nat) : ((owned members (items.take (row - 1))).zipIdx place).filter
      (fun ((owner, _), _) => owner == row) = [] := by
    refine filter_owned_of_ne (fun other hother => ?_) place
    have hle := (itemAt?_le (mem_numbered.mp hother)).2
    have hone := (itemAt?_le h).1
    rw [List.length_take] at hle
    omega
  have hback (place : Nat) := @filter_owned_of_ne α β members row
    ((items.drop row).zipIdx (row + 1))
    (fun other hother => by
      have hge := List.le_snd_of_mem_zipIdx hother
      omega) place
  have hown (place : Nat) : (((members item).map (row, ·)).zipIdx place).filter
      (fun ((owner, _), _) => owner == row) = ((members item).map (row, ·)).zipIdx place := by
    refine List.filter_eq_self.mpr ?_
    rintro ⟨⟨owner, member⟩, index⟩ hmem
    obtain ⟨_, -, heq⟩ := List.mem_map.mp (List.fst_mem_of_mem_zipIdx hmem)
    cases heq
    exact beq_self_eq_true row
  rw [owned_eq_append h, numbered, List.zipIdx_append, List.zipIdx_append, List.filter_append,
    List.filter_append, hfront, hown, hback, List.nil_append, List.append_nil,
    List.zipIdx_map_snd, List.length_map, length_owned, memberRows, firstRow, Nat.add_comm]

end Members

/-!
## Owners
-/

section Owners

variable {α β : Type} {members : α → List β}

/-- Rows that nobody owned so far get an owner. -/
theorem ownListed_range' (owner nobody : Token) (owners : List Token) (count rest : Nat) :
    ImageMetadata.ownListed (owners ++ List.replicate (count + rest) nobody).toArray
        (owner, List.range' (owners.length + 1) count) =
      (owners ++ List.replicate count owner ++ List.replicate rest nobody).toArray := by
  induction count generalizing owners with
  | zero => rw [Nat.zero_add, List.replicate_zero, List.append_nil]; rfl
  | succ count ih =>
      have hset : (owners ++ List.replicate (count + 1 + rest) nobody).set owners.length owner =
          owners ++ [owner] ++ List.replicate (count + rest) nobody := by
        rw [List.set_append_right _ _ (Nat.le_refl _), Nat.sub_self,
          Nat.add_right_comm count 1 rest, List.replicate_succ, List.set_cons_zero,
          List.append_assoc, List.singleton_append]
      have hnext := ih (owners ++ [owner])
      rw [List.length_append, List.length_singleton] at hnext
      unfold ImageMetadata.ownListed at hnext ⊢
      dsimp only at hnext ⊢
      rw [List.range'_succ, List.foldl_cons, if_neg (Nat.succ_ne_zero _), Nat.add_sub_cancel,
        List.setIfInBounds_toArray, hset, hnext, List.replicate_succ, List.append_assoc,
        List.append_assoc, List.append_assoc, List.singleton_append]
      rfl

/-- Items that own consecutive rows own all of them, in their order. -/
theorem foldl_ownListed (owner : α → Nat → Token) (nobody : Token) (done todo : List α)
    (owners : List Token) (howners : owners.length = memberCount members done) :
    ((todo.zipIdx (done.length + 1)).map fun (item, row) =>
        (owner item row, memberRows members (done ++ todo) item row)).foldl
          ImageMetadata.ownListed
        (owners ++ List.replicate (memberCount members todo) nobody).toArray =
      (owners ++ (todo.zipIdx (done.length + 1)).flatMap fun (item, row) =>
        List.replicate (members item).length (owner item row)).toArray := by
  induction todo generalizing done owners with
  | nil => rw [memberCount_nil]; rfl
  | cons first rest ih =>
      have hrows : memberRows members (done ++ first :: rest) first (done.length + 1) =
          List.range' (owners.length + 1) (members first).length := by
        rw [memberRows, firstRow, Nat.add_sub_cancel, List.take_left, howners]
      have hlater := ih (done ++ [first])
        (owners ++ List.replicate (members first).length (owner first (done.length + 1)))
        (by rw [List.length_append, List.length_replicate, memberCount_append, memberCount_cons,
          memberCount_nil, howners, Nat.add_zero])
      have hwhole : done ++ [first] ++ rest = done ++ first :: rest := List.append_assoc ..
      rw [List.length_append, List.length_singleton, hwhole] at hlater
      rw [List.zipIdx_cons, List.map_cons, List.foldl_cons]
      dsimp only
      rw [hrows, memberCount_cons, ownListed_range', hlater, List.flatMap_cons, List.append_assoc]

/-- The owners of members are the owners of the items that they belong to. -/
theorem owners_eq (owner : α → Nat → Token) (nobody : Token) (items : List α) :
    ((numbered items).map fun (item, row) =>
        (owner item row, memberRows members items item row)).foldl ImageMetadata.ownListed
          (Array.replicate (memberCount members items) nobody) =
      ((numbered items).flatMap fun (item, row) =>
        List.replicate (members item).length (owner item row)).toArray := by
  have hall := @foldl_ownListed α β members owner nobody [] items [] rfl
  rw [List.nil_append, List.nil_append, List.nil_append] at hall
  rw [← List.toArray_replicate]
  exact hall

theorem mem_owned {owner : Nat} {member : β} {items : List α}
    (h : (owner, member) ∈ owned members items) : 1 ≤ owner ∧ owner ≤ items.length := by
  obtain ⟨⟨item, row⟩, hitem, hmember⟩ := List.mem_flatMap.mp h
  obtain ⟨_, -, heq⟩ := List.mem_map.mp hmember
  cases heq
  exact itemAt?_le (mem_numbered.mp hitem)

/-- Items without members add nothing. -/
theorem flatMap_nonempty {γ : Type} {f : Nat × List β → List γ} (h : ∀ row, f (row, []) = [])
    (items : List (α × Nat)) :
    (items.filterMap fun (item, row) =>
        if (members item).isEmpty then none else some (row, members item)).flatMap f =
      items.flatMap fun (item, row) => f (row, members item) := by
  induction items with
  | nil => rfl
  | cons first rest ih =>
      rw [List.filterMap_cons, List.flatMap_cons, ← ih]
      cases hmembers : members first.1 with
      | nil => simp [hmembers, h]
      | cons => simp [hmembers]

theorem map_owned (owner : Nat → Token) (items : List α) :
    (owned members items).map (fun (row, _) => owner row) =
      (numbered items).flatMap fun (item, row) =>
        List.replicate (members item).length (owner row) := by
  rw [owned, List.map_flatMap]
  refine List.flatMap_congr fun (item, row) _ => ?_
  rw [List.map_map]
  exact List.map_const'

end Owners

end AssemblyBrowser
