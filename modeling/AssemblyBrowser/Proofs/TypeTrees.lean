import Mathlib.Data.List.Nodup
import Mathlib.Data.List.Perm.Subperm
import Mathlib.Logic.Relation
import AssemblyBrowser.Listing.Basic
import AssemblyBrowser.Proofs.Outcomes

/-!
# Trees of nested types

A walk over nested types gets to its end exactly if it never comes to a type
that stands inside itself. One direction counts: a chain of different types is
no longer than the list of types, so a walk that is deeper has come back to a
type. The other direction follows the circle as often as there is depth left.
-/

namespace AssemblyBrowser

/-!
## Tokens of types
-/

theorem Token.ofParts_table_row (token : Token) : Token.ofParts token.table token.row = token := by
  have hlt : token.value.toNat < 4294967296 := token.value.toNat_lt
  have hvalue : (token.table % 0x100) * 0x1000000 + token.row % 0x1000000 = token.value.toNat := by
    unfold Token.table Token.row
    omega
  unfold Token.ofParts
  rw [hvalue, UInt32.ofNat_toNat]

theorem Token.ext_parts {a b : Token} (htable : a.table = b.table) (hrow : a.row = b.row) :
    a = b := by
  rw [← a.ofParts_table_row, ← b.ofParts_table_row, htable, hrow]

theorem TableId.table_token (table : TableId) (row : Nat) :
    (table.token row).table = table.number :=
  Token.table_ofParts table.number row (Nat.lt_trans table.number_lt (by decide))

namespace CodeModule

variable {m : CodeModule}

theorem type?_eq_some {token : Token} {type : TypeDefinition} :
    m.type? token = some type ↔
      token.table = TableId.typeDef.number ∧ token.row ≠ 0 ∧
        m.types[token.row - 1]? = some type := by
  unfold type? byRow
  split
  case isTrue h => simp [h]
  case isFalse h =>
    constructor
    · intro heq
      cases heq
    · intro heq
      exact absurd ⟨heq.1, heq.2.1⟩ h

/-- A token of a type is made of a row of the list of types. -/
theorem mem_tokens_of_type? {token : Token} (h : (m.type? token).isSome) :
    token ∈ (List.range' 1 m.types.size).map TableId.typeDef.token := by
  rcases Option.isSome_iff_exists.mp h with ⟨type, htype⟩
  rcases type?_eq_some.mp htype with ⟨htable, hrow, hget⟩
  have hlt : token.row - 1 < m.types.size := (Array.getElem?_eq_some_iff.mp hget).1
  refine List.mem_map.mpr ⟨token.row, ?_, ?_⟩
  · rw [List.mem_range'_1]
    omega
  · unfold TableId.token
    rw [← htable]
    exact token.ofParts_table_row

/-!
## Chains of types
-/

/-- A type is written inside another one: that one is opened, lists it, and it can be found. -/
def ShowsInside (m : CodeModule) (opens : TypeDefinition → Bool) (outer inner : Token) : Prop :=
  ∃ type, m.type? outer = some type ∧ opens type = true ∧ inner ∈ type.nestedTypes ∧
    (m.type? inner).isSome

/-- Types are written inside one another, `depth` deep below a token. -/
def Descends (m : CodeModule) (opens : TypeDefinition → Bool) : (depth : Nat) → Token → Prop
  | 0, _ => True
  | depth + 1, outer => ∃ inner, m.ShowsInside opens outer inner ∧ m.Descends opens depth inner

/-- The walk below a token comes to a type that is written inside itself. -/
def MeetsCircle (m : CodeModule) (opens : TypeDefinition → Bool) (token : Token) : Prop :=
  ∃ inner, Relation.ReflTransGen (m.ShowsInside opens) token inner ∧
    Relation.TransGen (m.ShowsInside opens) inner inner

variable {opens : TypeDefinition → Bool}

/-- Different tokens, one for each step of a chain that never returns. -/
theorem Descends.exists_nodup {depth : Nat} {token : Token} (h : m.Descends opens depth token)
    (htoken : (m.type? token).isSome) (hfree : ¬ m.MeetsCircle opens token) :
    ∃ tokens : List Token, tokens.length = depth + 1 ∧ tokens.Nodup ∧
      ∀ other ∈ tokens, (m.type? other).isSome ∧
        Relation.ReflTransGen (m.ShowsInside opens) token other := by
  induction depth generalizing token with
  | zero =>
      refine ⟨[token], rfl, List.nodup_singleton token, ?_⟩
      intro other hother
      rw [List.mem_singleton.mp hother]
      exact ⟨htoken, Relation.ReflTransGen.refl⟩
  | succ depth ih =>
      rcases h with ⟨inner, hstep, hbelow⟩
      have hinner : (m.type? inner).isSome := by
        rcases hstep with ⟨_, _, _, _, hsome⟩
        exact hsome
      have hfreeBelow : ¬ m.MeetsCircle opens inner := by
        rintro ⟨place, hreach, hcircle⟩
        exact hfree ⟨place, hreach.head hstep, hcircle⟩
      rcases ih hbelow hinner hfreeBelow with ⟨tokens, hlength, hnodup, hall⟩
      refine ⟨token :: tokens, by rw [List.length_cons, hlength], ?_, ?_⟩
      · refine List.nodup_cons.mpr ⟨?_, hnodup⟩
        intro hmem
        have hback := (hall token hmem).2
        exact hfree ⟨token, Relation.ReflTransGen.refl, Relation.TransGen.head' hstep hback⟩
      · intro other hother
        rcases List.mem_cons.mp hother with heq | hrest
        · rw [heq]
          exact ⟨htoken, Relation.ReflTransGen.refl⟩
        · exact ⟨(hall other hrest).1, (hall other hrest).2.head hstep⟩

/-- A chain as long as the list of types has come back to a type. -/
theorem Descends.meetsCircle {token : Token} (h : m.Descends opens m.types.size token)
    (htoken : (m.type? token).isSome) : m.MeetsCircle opens token := by
  by_contra hfree
  rcases h.exists_nodup htoken hfree with ⟨tokens, hlength, hnodup, hall⟩
  have hsubset : tokens ⊆ (List.range' 1 m.types.size).map TableId.typeDef.token := by
    intro other hother
    exact mem_tokens_of_type? (hall other hother).1
  have hle := (List.subperm_of_subset hnodup hsubset).length_le
  rw [hlength, List.length_map, List.length_range'] at hle
  omega

theorem descends_of_transGen {circle : Token}
    (hcircle : Relation.TransGen (m.ShowsInside opens) circle circle) (depth : Nat)
    {token : Token} (h : Relation.TransGen (m.ShowsInside opens) token circle) :
    m.Descends opens depth token := by
  induction depth generalizing token with
  | zero => trivial
  | succ depth ih =>
      rcases Relation.TransGen.head'_iff.mp h with ⟨inner, hstep, hrest⟩
      refine ⟨inner, hstep, ih ?_⟩
      rcases Relation.reflTransGen_iff_eq_or_transGen.mp hrest with heq | htrans
      · rw [← heq]
        exact hcircle
      · exact htrans

theorem MeetsCircle.descends {token : Token} (h : m.MeetsCircle opens token) (depth : Nat) :
    m.Descends opens depth token := by
  rcases h with ⟨circle, hreach, hcircle⟩
  exact descends_of_transGen hcircle depth (hcircle.trans_right hreach)

/-!
## Walks
-/

/-- A walk gets to its end if no chain is as long as the walk may be deep. -/
theorem typeTreeWithin_ok_iff {depth : Nat} {token : Token} {type : TypeDefinition}
    (htype : m.type? token = some type) :
    (∃ tree, m.typeTreeWithin opens depth type = .ok tree) ↔ ¬ m.Descends opens depth token := by
  induction depth generalizing token type with
  | zero => simp [typeTreeWithin, Descends]
  | succ depth ih =>
      rw [typeTreeWithin]
      cases hopens : opens type with
      | false =>
          constructor
          · rintro - ⟨inner, ⟨other, hother, hopen, _⟩, _⟩
            rw [htype] at hother
            rw [← Option.some.inj hother, hopens] at hopen
            cases hopen
          · intro _
            exact ⟨_, rfl⟩
      | true =>
          have hall : (∃ trees, (type.nestedTypes.filterMap m.type?).mapM
                (m.typeTreeWithin opens depth) = .ok trees) ↔
              ¬ m.Descends opens (depth + 1) token := by
            rw [Outcome.exists_mapM_eq_ok]
            constructor
            · rintro hnested ⟨inner, ⟨other, hother, _, hmem, hsome⟩, hbelow⟩
              rw [htype] at hother
              rw [← Option.some.inj hother] at hmem
              rcases Option.isSome_iff_exists.mp hsome with ⟨nested, hfound⟩
              have hended := hnested nested (List.mem_filterMap.mpr ⟨inner, hmem, hfound⟩)
              exact (ih hfound).mp hended hbelow
            · intro hnot nested hnested
              rcases List.mem_filterMap.mp hnested with ⟨inner, hmem, hfound⟩
              refine (ih hfound).mpr fun hbelow => hnot ⟨inner, ?_, hbelow⟩
              exact ⟨type, htype, hopens, hmem, by rw [hfound]; rfl⟩
          rw [← hall]
          constructor
          · rintro ⟨tree, htree⟩
            rcases Outcome.bind_eq_ok.mp htree with ⟨trees, htrees, _⟩
            exact ⟨trees, htrees⟩
          · rintro ⟨trees, htrees⟩
            exact ⟨_, Outcome.bind_eq_ok.mpr ⟨trees, htrees, rfl⟩⟩

/-- A walk that does not get to its end uses up the stack. -/
theorem typeTreeWithin_error {depth : Nat} {type : TypeDefinition} {error : Error}
    (h : m.typeTreeWithin opens depth type = .error error) : error = .stackOverflow := by
  induction depth generalizing type with
  | zero => exact (Except.error.inj h).symm
  | succ depth ih =>
      rw [typeTreeWithin] at h
      split at h
      · rcases Outcome.bind_eq_error.mp h with hnested | ⟨trees, _, hpure⟩
        · rcases Outcome.mapM_eq_error hnested with ⟨nested, _, herror⟩
          exact ih herror
        · cases hpure
      · cases h

theorem typeTree_ok_iff {token : Token} {type : TypeDefinition}
    (htype : m.type? token = some type) :
    (∃ tree, m.typeTree opens type = .ok tree) ↔ ¬ m.MeetsCircle opens token := by
  unfold typeTree
  rw [typeTreeWithin_ok_iff htype]
  have hsome : (m.type? token).isSome := by rw [htype]; rfl
  constructor
  · intro hnot hcircle
    exact hnot (hcircle.descends m.types.size)
  · intro hfree hdescends
    exact hfree (hdescends.meetsCircle hsome)

end CodeModule

/-!
## Listings
-/

namespace Listing

/-- Which types a dialect shows with the types nested in them. -/
def opensIn (dialect : Dialect) : TypeDefinition → Bool :=
  if dialect.isIl then fun _ => true else CSharp.showsNested

theorem ilListing_ok_iff {m : CodeModule} {token : Token} {type : TypeDefinition}
    (htype : m.type? token = some type) :
    (∃ source, Il.typeListing m token = .ok source) ↔
      ∃ tree, m.typeTree (fun _ => true) type = .ok tree := by
  simp only [Il.typeListing, htype]
  exact Outcome.exists_bind_eq_ok fun tree => ⟨_, rfl⟩

theorem csharpListing_ok_iff {m : CodeModule} {token : Token} {type : TypeDefinition}
    (htype : m.type? token = some type) :
    (∃ source, CSharp.typeListing m token = .ok source) ↔
      ∃ tree, m.typeTree CSharp.showsNested type = .ok tree := by
  simp only [CSharp.typeListing, htype]
  refine Outcome.exists_bind_eq_ok fun tree => ?_
  split
  · exact ⟨_, rfl⟩
  · exact ⟨_, rfl⟩

theorem ofType_error {m : CodeModule} {token : Token} (htoken : (m.type? token).isSome)
    {dialect : Dialect} {error : Error} (h : ofType dialect m token = .error error) :
    error = .stackOverflow := by
  rcases Option.isSome_iff_exists.mp htoken with ⟨type, htype⟩
  unfold ofType at h
  rw [Outcome.map_eq_error] at h
  cases hdialect : dialect.isIl with
  | true =>
      simp only [hdialect, if_true, Il.typeListing, htype] at h
      rcases Outcome.bind_eq_error.mp h with htree | ⟨tree, _, hpure⟩
      · exact CodeModule.typeTreeWithin_error htree
      · cases hpure
  | false =>
      simp only [hdialect, CSharp.typeListing, htype] at h
      rcases Outcome.bind_eq_error.mp h with htree | ⟨tree, _, hpure⟩
      · exact CodeModule.typeTreeWithin_error htree
      · split at hpure <;> cases hpure

/-- A type is written unless its nested types lead to one that is written inside itself. -/
theorem ofType_ok_iff {m : CodeModule} {token : Token} (htoken : (m.type? token).isSome)
    (dialect : Dialect) :
    (∃ text, ofType dialect m token = .ok text) ↔ ¬ m.MeetsCircle (opensIn dialect) token := by
  rcases Option.isSome_iff_exists.mp htoken with ⟨type, htype⟩
  rw [← CodeModule.typeTree_ok_iff htype]
  unfold ofType opensIn
  rw [Outcome.exists_map_eq_ok]
  cases dialect.isIl with
  | true => exact ilListing_ok_iff htype
  | false => exact csharpListing_ok_iff htype

/-- A type that is not written uses up the stack; it is not refused. -/
theorem ofType_overflows_iff {m : CodeModule} {token : Token} (htoken : (m.type? token).isSome)
    (dialect : Dialect) :
    ofType dialect m token = .error .stackOverflow ↔ m.MeetsCircle (opensIn dialect) token := by
  have hok := ofType_ok_iff htoken dialect
  constructor
  · intro herror
    by_contra hfree
    rcases hok.mpr hfree with ⟨text, htext⟩
    rw [herror] at htext
    cases htext
  · intro hcircle
    cases houtcome : ofType dialect m token with
    | ok text => exact absurd hcircle (hok.mp ⟨text, houtcome⟩)
    | error error => rw [ofType_error htoken houtcome]

end Listing
end AssemblyBrowser
