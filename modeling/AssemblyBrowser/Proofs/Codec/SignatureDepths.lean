import AssemblyBrowser.Proofs.Codec.SignatureSizes

/-!
# Types that are nested too deep

Reading fails with the limit exactly where it comes to a type that is nested deeper
than that: from a type to one inside it, and so on, with everything in front of each
read well. So reading with a higher limit tells the same unless the limit is what
reading with the lower one fails with, and no tree is cut short.
-/

namespace AssemblyBrowser
namespace Decoder

variable {α β : Type}

/-!
## Where decoders fail
-/

/-- A decoder fails with an error from a place. -/
def Fails (error : Error) (decoder : Decoder α) (cursor : Cursor) : Prop :=
  ∃ place, decoder.run cursor = .error error place

variable {error : Error} {decoder : Decoder α} {cursor : Cursor}

theorem not_fails_pure (value : α) : ¬ (pure value : Decoder α).Fails error cursor :=
  fun ⟨_, h⟩ => nomatch h

/-- What is made of two decoders fails where the first one fails, and where the second one fails
behind it. -/
theorem fails_bind_iff {next : α → Decoder β} :
    (decoder >>= next).Fails error cursor ↔ decoder.Fails error cursor ∨
      ∃ value after, decoder.run cursor = .ok value after ∧ (next value).Fails error after := by
  unfold Fails
  cases hrun : decoder.run cursor with
  | ok value after =>
      rw [run_bind hrun]
      constructor
      · exact fun h => .inr ⟨value, after, rfl, h⟩
      · rintro (⟨_, h⟩ | ⟨other, place, h, hfails⟩)
        · cases h
        · cases h
          exact hfails
  | error other place =>
      rw [run_bind_error hrun]
      constructor
      · rintro ⟨_, h⟩
        cases h
        exact .inl ⟨place, rfl⟩
      · rintro (⟨_, h⟩ | ⟨_, _, h, _⟩)
        · cases h
          exact ⟨place, rfl⟩
        · cases h

/-- What only changes the value fails where the decoder does. -/
theorem fails_map_iff {f : α → β} :
    (do let value ← decoder; return f value : Decoder β).Fails error cursor ↔
      decoder.Fails error cursor := by
  rw [fails_bind_iff]
  refine or_iff_left ?_
  rintro ⟨value, after, _, h⟩
  exact not_fails_pure _ h

/-- Many values fail where one of them fails behind the others. -/
theorem fails_repeated_iff {count : Nat} :
    (repeated decoder count).Fails error cursor ↔
      ∃ earlier < count, ∃ values place,
        (repeated decoder earlier).run cursor = .ok values place ∧ decoder.Fails error place := by
  induction count generalizing cursor with
  | zero =>
      refine iff_of_false (not_fails_pure _) ?_
      rintro ⟨_, h, _⟩
      exact Nat.not_lt_zero _ h
  | succ count ih =>
      unfold repeated
      rw [fails_bind_iff]
      simp only [fails_map_iff, ih]
      constructor
      · rintro (h | ⟨value, after, hvalue, earlier, hlt, values, place, hvalues, h⟩)
        · exact ⟨0, Nat.succ_pos _, [], cursor, rfl, h⟩
        · refine ⟨earlier + 1, Nat.succ_lt_succ hlt, value :: values, place, ?_, h⟩
          exact (run_bind hvalue).trans (run_bind hvalues)
      · rintro ⟨earlier, hlt, values, place, hvalues, h⟩
        cases earlier with
        | zero =>
            cases hvalues
            exact .inl h
        | succ earlier =>
            obtain ⟨value, after, hvalue, hrest⟩ := exists_of_run_bind hvalues
            obtain ⟨others, place', hothers, hend⟩ := exists_of_run_bind hrest
            cases hend
            exact .inr ⟨value, after, hvalue, earlier, Nat.lt_of_succ_lt_succ hlt, others, _,
              hothers, h⟩

theorem parse_eq_error_iff {data : Bytes} :
    decoder.parse data = .error error ↔ decoder.Fails error { data := data } := by
  unfold parse Fails
  cases decoder.run { data := data } with
  | ok value after => exact iff_of_false (fun h => nomatch h) fun ⟨_, h⟩ => nomatch h
  | error other place =>
      constructor
      · intro h
        cases h
        exact ⟨place, rfl⟩
      · rintro ⟨_, h⟩
        cases h
        rfl

end Decoder

namespace Signature

open Decoder

/-- A decoder fails with the limit from a place. -/
abbrev HitsLimit {α : Type} (decoder : Decoder α) (cursor : Cursor) : Prop :=
  decoder.Fails (.recursionLimit maxDepth) cursor

section Steps

variable {α β : Type} {P : Nat → α → Prop} {decoder : Decoder α} {cursor : Cursor}

theorem not_hitsLimit (h : Spends Error.FromData P decoder) (hinside : cursor.Inside) :
    ¬ HitsLimit decoder cursor :=
  fun ⟨_, hrun⟩ => nomatch (h.of_error hinside hrun).2.2

/-- Behind a part that holds no types, it is the rest that can be nested too deep. -/
theorem hitsLimit_bind_iff {next : α → Decoder β} (h : Spends Error.FromData P decoder)
    (hinside : cursor.Inside) :
    HitsLimit (decoder >>= next) cursor ↔
      ∃ value after, decoder.run cursor = .ok value after ∧ after.Inside ∧
        HitsLimit (next value) after := by
  unfold HitsLimit
  rw [fails_bind_iff, or_iff_right (not_hitsLimit h hinside)]
  constructor
  · rintro ⟨value, after, hrun, hfails⟩
    exact ⟨value, after, hrun, h.inside hinside hrun, hfails⟩
  · rintro ⟨value, after, hrun, _, hfails⟩
    exact ⟨value, after, hrun, hfails⟩

end Steps

/-!
## From a type to those inside it
-/

/-- Reading a member comes to a type: to the first, or to one behind those before it. -/
inductive MemberOpens (start : Decoder MemberStart) (marks : Decoder Unit)
    (reader : Decoder TypeSignature) (cursor : Cursor) : Cursor → Prop where
  | first {head : MemberStart} {place : Cursor} (hstart : start.run cursor = .ok head place) :
      MemberOpens start marks reader cursor place
  | parameter {head : MemberStart} {afterStart afterType before place : Cursor}
      {type : TypeSignature} {earlier : Nat} {parameters : List TypeSignature}
      (hstart : start.run cursor = .ok head afterStart)
      (htype : reader.run afterStart = .ok type afterType) (hcount : earlier < head.count)
      (hearlier : (repeated (do marks; reader) earlier).run afterType = .ok parameters before)
      (hmarks : marks.run before = .ok () place) : MemberOpens start marks reader cursor place

/-- Behind its first byte, reading a type comes to one inside it. -/
inductive OpensBehind (reader : Decoder TypeSignature) :
    (element : Nat) → (after place : Cursor) → Prop where
  | first {element : Nat} {after : Cursor} (h : element ∈ [0x0F, 0x10, 0x14, 0x15, 0x1D]) :
      OpensBehind reader element after after
  | argument {after afterBase afterCount place : Cursor} {base : TypeSignature}
      {count earlier : Nat} {arguments : List TypeSignature}
      (hbase : reader.run after = .ok base afterBase)
      (hcount : CompressedNumber.decode.run afterBase = .ok count afterCount)
      (hlt : earlier < count)
      (hearlier : (repeated reader earlier).run afterCount = .ok arguments place) :
      OpensBehind reader 0x15 after place
  | method {after place : Cursor}
      (h : MemberOpens methodStart parameterStart reader after place) :
      OpensBehind reader 0x1B after place

/-- Reading a type comes to one inside it. -/
inductive Opens (reader : Decoder TypeSignature) (cursor place : Cursor) : Prop where
  | mk {afterMarks after : Cursor} {element : Nat}
      (hmarks : skipModifiers.run cursor = .ok () afterMarks)
      (helement : byte.run afterMarks = .ok element after)
      (h : OpensBehind reader element after place) : Opens reader cursor place

/-- Reading a type comes to one that is nested deeper than a number of levels. The types in front of
that one are read with what is left of the levels. -/
inductive Deeper : (depth : Nat) → Cursor → Prop where
  | limit {cursor : Cursor} : Deeper 0 cursor
  | inside {depth : Nat} {cursor place : Cursor} (h : Opens (type depth) cursor place)
      (hplace : Deeper depth place) : Deeper (depth + 1) cursor

section Parts

variable {depth : Nat} {reader : Decoder TypeSignature} {cursor : Cursor}

theorem hitsLimit_behind_iff {marks : Decoder Unit}
    (hmarks : Spends Error.FromData (fun _ _ => True) marks) (hinside : cursor.Inside) :
    HitsLimit (do marks; reader) cursor ↔
      ∃ place, marks.run cursor = .ok () place ∧ place.Inside ∧ HitsLimit reader place := by
  rw [hitsLimit_bind_iff hmarks hinside]
  constructor
  · exact fun ⟨_, place, h⟩ => ⟨place, h⟩
  · exact fun ⟨place, h⟩ => ⟨(), place, h⟩

/-- A member is nested too deep where one of its types is. -/
theorem hitsLimit_memberOf_iff {α : Type} {start : Decoder MemberStart} {marks : Decoder Unit}
    (make : MemberStart → TypeSignature → List TypeSignature → α)
    (hstart : Spends Error.FromData (fun _ _ => True) start)
    (hmarks : Spends Error.FromData (fun _ _ => True) marks) (hreader : SpendsTypes depth reader)
    (hinside : cursor.Inside) :
    HitsLimit (memberOf start marks make reader) cursor ↔
      ∃ place, MemberOpens start marks reader cursor place ∧ place.Inside ∧
        HitsLimit reader place := by
  have hitem := spends_behind hreader hmarks
  rw [memberOf, hitsLimit_bind_iff hstart hinside]
  constructor
  · rintro ⟨head, afterStart, hhead, hafterStart, h⟩
    rcases fails_bind_iff.mp h with h | ⟨type, afterType, htype, h⟩
    · exact ⟨afterStart, .first hhead, hafterStart, h⟩
    · have hafterType := hreader.inside hafterStart htype
      obtain ⟨earlier, hlt, parameters, before, hearlier, h⟩ :=
        fails_repeated_iff.mp (fails_map_iff.mp h)
      have hbefore := (spends_types hitem earlier).inside hafterType hearlier
      obtain ⟨place, hplaceMarks, hplace, h⟩ := (hitsLimit_behind_iff hmarks hbefore).mp h
      exact ⟨place, .parameter hhead htype hlt hearlier hplaceMarks, hplace, h⟩
  · rintro ⟨place, hopens, hplace, h⟩
    cases hopens with
    | first hhead => exact ⟨_, place, hhead, hplace, fails_bind_iff.mpr (.inl h)⟩
    | @parameter head afterStart afterType before _ _ earlier _ hhead htype hlt hearlier
        hplaceMarks =>
        have hafterStart := hstart.inside hinside hhead
        have hafterType := hreader.inside hafterStart htype
        have hbefore := (spends_types hitem earlier).inside hafterType hearlier
        refine ⟨head, afterStart, hhead, hafterStart, ?_⟩
        refine fails_bind_iff.mpr (.inr ⟨_, afterType, htype, fails_map_iff.mpr ?_⟩)
        refine fails_repeated_iff.mpr ⟨earlier, hlt, _, before, hearlier, ?_⟩
        exact (hitsLimit_behind_iff hmarks hbefore).mpr ⟨place, hplaceMarks, hplace, h⟩

end Parts

theorem hitsLimit_type_succ_iff {depth : Nat} {cursor : Cursor} (hinside : cursor.Inside) :
    HitsLimit (type (depth + 1)) cursor ↔
      ∃ place, Opens (type depth) cursor place ∧ place.Inside ∧ HitsLimit (type depth) place := by
  have hreader := spends_type depth
  rw [type, hitsLimit_bind_iff spends_skipModifiers hinside]
  constructor
  · rintro ⟨_, afterMarks, hmarks, hafterMarks, h⟩
    rw [hitsLimit_bind_iff spends_byte hafterMarks] at h
    obtain ⟨element, after, helement, hafter, h⟩ := h
    suffices ∃ place, OpensBehind (type depth) element after place ∧ place.Inside ∧
        HitsLimit (type depth) place by
      obtain ⟨place, hopens, hrest⟩ := this
      exact ⟨place, ⟨hmarks, helement, hopens⟩, hrest⟩
    split at h
    case h_1 | h_2 | h_9 =>
      exact ⟨after, .first (by decide), hafter, fails_map_iff.mp h⟩
    case h_3 | h_4 =>
      exact absurd (fails_map_iff.mp h) (not_hitsLimit CompressedNumber.spends_decodeToken hafter)
    case h_5 | h_10 =>
      exact absurd (fails_map_iff.mp h) (not_hitsLimit CompressedNumber.spends_decode hafter)
    case h_6 =>
      rcases fails_bind_iff.mp h with h | ⟨inner, afterInner, hinner, h⟩
      · exact ⟨after, .first (by decide), hafter, h⟩
      · exact absurd h (not_hitsLimit (spends_arrayShape inner) (hreader.inside hafter hinner))
    case h_7 =>
      rcases fails_bind_iff.mp h with h | ⟨base, afterBase, hbase, h⟩
      · exact ⟨after, .first (by decide), hafter, h⟩
      · have hafterBase := hreader.inside hafter hbase
        obtain ⟨count, afterCount, hcount, hafterCount, h⟩ :=
          (hitsLimit_bind_iff CompressedNumber.spends_decode hafterBase).mp h
        obtain ⟨earlier, hlt, arguments, place, hearlier, h⟩ :=
          fails_repeated_iff.mp (fails_map_iff.mp h)
        have hplace := (spends_types hreader earlier).inside hafterCount hearlier
        exact ⟨place, .argument hbase hcount hlt hearlier, hplace, h⟩
    case h_8 =>
      have hmethod := fails_map_iff.mp h
      rw [methodOf_eq] at hmethod
      obtain ⟨place, hopens, hrest⟩ := (hitsLimit_memberOf_iff makeMethod spends_methodStart
        spends_parameterStart hreader hafter).mp hmethod
      exact ⟨place, .method hopens, hrest⟩
    case h_11 =>
      refine absurd h ?_
      split
      · exact not_fails_pure _
      · exact not_hitsLimit (spends_malformed (P := fun _ _ => True) _) hafter
  · rintro ⟨place, ⟨hmarks, helement, hopens⟩, hplace, h⟩
    have hafterMarks := spends_skipModifiers.inside hinside hmarks
    have hafter := spends_byte.inside hafterMarks helement
    refine ⟨(), _, hmarks, hafterMarks, ?_⟩
    refine (hitsLimit_bind_iff spends_byte hafterMarks).mpr ⟨_, _, helement, hafter, ?_⟩
    cases hopens with
    | first hmem =>
        simp only [List.mem_cons, List.not_mem_nil, or_false] at hmem
        rcases hmem with rfl | rfl | rfl | rfl | rfl
        · exact fails_map_iff.mpr h
        · exact fails_map_iff.mpr h
        · exact fails_bind_iff.mpr (.inl h)
        · exact fails_bind_iff.mpr (.inl h)
        · exact fails_map_iff.mpr h
    | @argument _ afterBase afterCount _ _ _ _ _ hbase hcount hlt hearlier =>
        have hafterBase := hreader.inside hafter hbase
        have hafterCount := CompressedNumber.spends_decode.inside hafterBase hcount
        refine fails_bind_iff.mpr (.inr ⟨_, afterBase, hbase, ?_⟩)
        refine (hitsLimit_bind_iff CompressedNumber.spends_decode hafterBase).mpr
          ⟨_, afterCount, hcount, hafterCount, ?_⟩
        exact fails_map_iff.mpr (fails_repeated_iff.mpr ⟨_, hlt, _, place, hearlier, h⟩)
    | method hmethod =>
        refine fails_map_iff.mpr ?_
        rw [methodOf_eq]
        exact (hitsLimit_memberOf_iff makeMethod spends_methodStart spends_parameterStart hreader
          hafter).mpr ⟨place, hmethod, hplace, h⟩

theorem MemberOpens.inside {depth : Nat} {start : Decoder MemberStart} {marks : Decoder Unit}
    {reader : Decoder TypeSignature} {cursor place : Cursor}
    (h : MemberOpens start marks reader cursor place)
    (hstart : Spends Error.FromData (fun _ _ => True) start)
    (hmarks : Spends Error.FromData (fun _ _ => True) marks) (hreader : SpendsTypes depth reader)
    (hinside : cursor.Inside) : place.Inside := by
  cases h with
  | first hhead => exact hstart.inside hinside hhead
  | parameter hhead htype _ hearlier hplaceMarks =>
      have hafterType := hreader.inside (hstart.inside hinside hhead) htype
      have hbefore :=
        (spends_types (spends_behind hreader hmarks) _).inside hafterType hearlier
      exact hmarks.inside hbefore hplaceMarks

theorem Opens.inside {depth : Nat} {cursor place : Cursor} (h : Opens (type depth) cursor place)
    (hinside : cursor.Inside) : place.Inside := by
  have hreader := spends_type depth
  rcases h with ⟨hmarks, helement, hopens⟩
  have hafter := spends_byte.inside (spends_skipModifiers.inside hinside hmarks) helement
  cases hopens with
  | first _ => exact hafter
  | argument hbase hcount _ hearlier =>
      have hafterCount :=
        CompressedNumber.spends_decode.inside (hreader.inside hafter hbase) hcount
      exact (spends_types hreader _).inside hafterCount hearlier
  | method hmethod => exact hmethod.inside spends_methodStart spends_parameterStart hreader hafter

/-- Reading a type fails with the limit exactly where it comes to one that is nested deeper. -/
theorem hitsLimit_type_iff {depth : Nat} {cursor : Cursor} (hinside : cursor.Inside) :
    HitsLimit (type depth) cursor ↔ Deeper depth cursor := by
  induction depth generalizing cursor with
  | zero => exact iff_of_true ⟨cursor, rfl⟩ .limit
  | succ depth ih =>
      rw [hitsLimit_type_succ_iff hinside]
      constructor
      · rintro ⟨place, hopens, hplace, h⟩
        exact .inside hopens ((ih hplace).mp h)
      · rintro (_ | ⟨hopens, h⟩)
        have hplace := hopens.inside hinside
        exact ⟨_, hopens, hplace, (ih hplace).mpr h⟩

/-!
## Other limits
-/

/-- A decoder tells the same as another one, or fails with the limit. -/
def OrLimit {α : Type} (near far : Decoder α) : Prop :=
  ∀ cursor, near.run cursor = far.run cursor ∨ HitsLimit near cursor

section Limits

variable {α β : Type}

theorem orLimit_refl (decoder : Decoder α) : OrLimit decoder decoder := fun _ => .inl rfl

theorem orLimit_bind {near far : Decoder α} {next last : α → Decoder β} (h : OrLimit near far)
    (hnext : ∀ value, OrLimit (next value) (last value)) :
    OrLimit (near >>= next) (far >>= last) := by
  intro cursor
  rcases h cursor with heq | hlimit
  · cases hrun : near.run cursor with
    | ok value after =>
        rw [HitsLimit, fails_bind_iff, run_bind hrun, run_bind (heq ▸ hrun)]
        refine (hnext value after).imp_right fun hlimit => .inr ⟨value, after, hrun, hlimit⟩
    | error error place =>
        exact .inl ((run_bind_error hrun).trans (run_bind_error (heq ▸ hrun)).symm)
  · exact .inr (fails_bind_iff.mpr (.inl hlimit))

theorem orLimit_repeated {near far : Decoder α} (h : OrLimit near far) (count : Nat) :
    OrLimit (repeated near count) (repeated far count) := by
  induction count with
  | zero => exact orLimit_refl _
  | succ count ih =>
      exact orLimit_bind h fun _ => orLimit_bind ih fun _ => orLimit_refl _

theorem orLimit_memberOf {near far : Decoder TypeSignature} (h : OrLimit near far)
    (start : Decoder MemberStart) (marks : Decoder Unit)
    (make : MemberStart → TypeSignature → List TypeSignature → α) :
    OrLimit (memberOf start marks make near) (memberOf start marks make far) := by
  refine orLimit_bind (orLimit_refl _) fun head => orLimit_bind h fun type => ?_
  have hitem : OrLimit (do marks; near) (do marks; far) := orLimit_bind (orLimit_refl _) fun _ => h
  exact orLimit_bind (orLimit_repeated hitem head.count) fun _ => orLimit_refl _

end Limits

/-- With more levels a type is read as with fewer, where these are enough. -/
theorem orLimit_type (depth more : Nat) : OrLimit (type depth) (type (depth + more)) := by
  induction depth with
  | zero => exact fun cursor => .inr ⟨cursor, rfl⟩
  | succ depth ih =>
      rw [Nat.succ_add, type, type]
      refine orLimit_bind (orLimit_refl _) fun _ => orLimit_bind (orLimit_refl _) fun element => ?_
      split
      case h_1 | h_2 | h_9 => exact orLimit_bind ih fun _ => orLimit_refl _
      case h_6 => exact orLimit_bind ih fun _ => orLimit_refl _
      case h_7 =>
        refine orLimit_bind ih fun _ => orLimit_bind (orLimit_refl _) fun count => ?_
        exact orLimit_bind (orLimit_repeated ih count) fun _ => orLimit_refl _
      case h_8 =>
        rw [methodOf_eq, methodOf_eq]
        exact orLimit_bind (orLimit_memberOf ih _ _ _) fun _ => orLimit_refl _
      all_goals exact orLimit_refl _

/-!
## Whole signatures
-/

/-- The answer of a reader of signatures to data. A tree that is returned has at most as many types
as there are bytes, and is at most as deep as types may be. The limit is hit exactly where reading
opens a type that comes to one nested deeper; without that, reading as deep as one likes tells the
same. -/
structure Bounded {α : Type} (reader : Decoder α) (nodes depth : α → Nat)
    (opens : Cursor → Cursor → Prop) (within : Decoder TypeSignature → Decoder α)
    (data : Bytes) : Prop where
  small : ∀ value, reader.parse data = .ok value → nodes value ≤ data.size ∧ depth value ≤ maxDepth
  fault : ∀ error, reader.parse data = .error error → IsFault error
  limit : reader.parse data = .error (.recursionLimit maxDepth) ↔
    ∃ place, opens { data := data } place ∧ Deeper maxDepth place
  whole : reader = within (type maxDepth) ∧ ∀ more,
    reader.parse data = (within (type (maxDepth + more))).parse data ∨
      reader.parse data = .error (.recursionLimit maxDepth)

theorem Bounded.of_spends {α : Type} {reader : Decoder α} {nodes depth : α → Nat}
    {opens : Cursor → Cursor → Prop} {within : Decoder TypeSignature → Decoder α}
    (hspends : Spends IsFault (fun spent value => nodes value ≤ spent ∧ depth value ≤ maxDepth)
      reader)
    (hopens : ∀ cursor : Cursor, cursor.Inside → (HitsLimit reader cursor ↔
      ∃ place, opens cursor place ∧ place.Inside ∧ HitsLimit (type maxDepth) place))
    (hinside : ∀ cursor place : Cursor, cursor.Inside → opens cursor place → place.Inside)
    (hreader : reader = within (type maxDepth))
    (hwithin : ∀ near far, OrLimit near far → OrLimit (within near) (within far)) (data : Bytes) :
    Bounded reader nodes depth opens within data := by
  have hstart : Cursor.Inside { data := data } := Nat.zero_le data.size
  have hanswer := hspends.parse data
  refine ⟨fun value h => ?_, fun error h => ?_, ?_, hreader, fun more => ?_⟩
  · rw [h] at hanswer
    rcases hanswer with ⟨spent, hspent, hnodes, hdepth⟩
    exact ⟨Nat.le_trans hnodes hspent, hdepth⟩
  · rw [h] at hanswer
    exact hanswer
  · rw [parse_eq_error_iff, ← HitsLimit, hopens _ hstart]
    constructor
    · rintro ⟨place, hplace, hin, h⟩
      exact ⟨place, hplace, (hitsLimit_type_iff hin).mp h⟩
    · rintro ⟨place, hplace, h⟩
      have hin := hinside _ _ hstart hplace
      exact ⟨place, hplace, hin, (hitsLimit_type_iff hin).mpr h⟩
  · rw [parse_eq_error_iff, hreader]
    refine (hwithin _ _ (orLimit_type maxDepth more) { data := data }).imp_left fun h => ?_
    unfold parse
    rw [h]

theorem bounded_memberOf {α : Type} {start : Decoder MemberStart} {marks : Decoder Unit}
    {make : MemberStart → TypeSignature → List TypeSignature → α} {nodes depth : α → Nat}
    {reader : Decoder α} (hreader : reader = memberOf start marks make (type maxDepth))
    (hstart : Spends Error.FromData (fun _ _ => True) start)
    (hmarks : Spends Error.FromData (fun _ _ => True) marks)
    (hnodes : ∀ head type parameters, nodes (make head type parameters) =
      type.nodes + TypeSignature.listNodes parameters)
    (hdepth : ∀ head type parameters, depth (make head type parameters) =
      max type.depth (TypeSignature.listDepth parameters)) (data : Bytes) :
    Bounded reader nodes depth (MemberOpens start marks (type maxDepth))
      (memberOf start marks make) data := by
  have htypes := spends_type maxDepth
  refine .of_spends ?_ ?_ ?_ hreader ?_ data
  · rw [hreader]
    refine spends_mono (spends_memberOf htypes make hstart hmarks) (fun _ => id) ?_
    rintro _ _ ⟨head, type, parameters, rfl, h⟩
    rw [hnodes, hdepth]
    exact h
  · intro cursor hinside
    rw [hreader]
    exact hitsLimit_memberOf_iff make hstart hmarks htypes hinside
  · exact fun cursor place hinside h => h.inside hstart hmarks htypes hinside
  · exact fun near far h => orLimit_memberOf h start marks make

theorem bounded_typeSpec (data : Bytes) :
    Bounded typeSpec TypeSignature.nodes TypeSignature.depth (fun cursor place => place = cursor) id
      data := by
  refine .of_spends (spends_type maxDepth) ?_ ?_ rfl (fun _ _ h => h) data
  · intro cursor hinside
    constructor
    · exact fun h => ⟨cursor, rfl, hinside, h⟩
    · rintro ⟨place, rfl, _, h⟩
      exact h
  · rintro cursor place hinside rfl
    exact hinside

theorem bounded_field (data : Bytes) :
    Bounded field TypeSignature.nodes TypeSignature.depth
      (fun cursor place => fieldStart.run cursor = .ok () place)
      (fun reader => do fieldStart; reader) data := by
  refine .of_spends ?_ ?_ ?_ field_eq ?_ data
  · rw [field_eq]
    exact spends_behind (spends_type maxDepth) spends_fieldStart
  · intro cursor hinside
    rw [field_eq]
    exact hitsLimit_behind_iff spends_fieldStart hinside
  · exact fun cursor place hinside h => spends_fieldStart.inside hinside h
  · exact fun near far h => orLimit_bind (orLimit_refl _) fun _ => h

/-- A loop over a count ends early: counts above the number of bytes that are left all fail in the
same way. -/
def EndsEarly {α : Type} (decoder : Decoder α) (cursor : Cursor) : Prop :=
  ∃ error place, ∀ count, cursor.remaining < count →
    (repeated decoder count).run cursor = .error error place

/-- The loops of the reader of signatures end from a place, whatever the count of one is. -/
structure LoopsEnd (cursor : Cursor) : Prop where
  marks : MarksRun cursor (skipModifiers.run cursor)
  numbers : EndsEarly CompressedNumber.decode cursor
  types : ∀ depth, EndsEarly (type depth) cursor
  parameters : ∀ depth, EndsEarly (parameter (type depth)) cursor

theorem loopsEnd {cursor : Cursor} (hinside : cursor.Inside) : LoopsEnd cursor := by
  have hspent : ∀ {depth spent : Nat} {type : TypeSignature},
      type.nodes ≤ spent ∧ type.depth ≤ depth → 1 ≤ spent :=
    fun {_ _ type} h => Nat.le_trans type.nodes_pos h.1
  refine ⟨marksRun_skipModifiers hinside, ?_, fun depth => ?_, fun depth => ?_⟩
  · exact exists_error_of_remaining_lt CompressedNumber.spends_decode (fun _ _ h => h.1) hinside
  · exact exists_error_of_remaining_lt (spends_type depth) (fun _ _ h => hspent h) hinside
  · have hparameter := spends_behind (spends_type depth) spends_parameterStart
    rw [parameter_eq]
    exact exists_error_of_remaining_lt hparameter (fun _ _ h => hspent h) hinside

/-- Reading signatures is bounded. Every loop ends by itself or with the data. A type, a field, a
property and a method that are returned have at most as many types as there are bytes, nested at
most 64 deep; and reading fails with the limit exactly where it comes to a type that is nested
deeper, so that no tree is cut short. -/
theorem signatures_bounded :
    (∀ before after : List UInt8, LoopsEnd (.between before after)) ∧
    ∀ data : Bytes,
      Bounded typeSpec TypeSignature.nodes TypeSignature.depth (fun cursor place => place = cursor)
        id data ∧
      Bounded field TypeSignature.nodes TypeSignature.depth
        (fun cursor place => fieldStart.run cursor = .ok () place)
        (fun reader => do fieldStart; reader) data ∧
      Bounded property PropertySignature.nodes PropertySignature.depth
        (MemberOpens propertyStart (pure ()) (type maxDepth))
        (memberOf propertyStart (pure ()) makeProperty) data ∧
      Bounded method MethodSignature.nodes MethodSignature.depth
        (MemberOpens methodStart parameterStart (type maxDepth))
        (memberOf methodStart parameterStart makeMethod) data := by
  refine ⟨fun before after => loopsEnd (Cursor.inside_between before after), fun data => ?_⟩
  refine ⟨bounded_typeSpec data, bounded_field data, ?_, ?_⟩
  · exact bounded_memberOf property_eq spends_propertyStart (spends_pure trivial)
      (fun _ _ _ => rfl) (fun _ _ _ => rfl) data
  · exact bounded_memberOf (methodOf_eq _) spends_methodStart spends_parameterStart
      (fun _ _ _ => rfl) (fun _ _ _ => rfl) data

end Signature
end AssemblyBrowser
