import Mathlib.Data.List.TakeWhile
import AssemblyBrowser.Proofs.Browsing.Agreement
import AssemblyBrowser.Proofs.Decimal.Nearest
import AssemblyBrowser.Proofs.Search.Terms

/-!
# Searches for numbers

A number that is typed as a whole number finds the constants that are this
number, whatever their types. The number is split off the query, read as a
decimal and rounded to the nearest binary64 number, and so is every constant
before it is compared. Up to `2 ^ 53` nothing is lost by that, except that this
number itself cannot be told from its successor.
-/

namespace AssemblyBrowser

open Decimal

/-!
## Whole numbers as text
-/

namespace Numeral

theorem toNat_bounds_of_isDigit {c : Char} (h : c.isDigit = true) :
    48 ≤ c.toNat ∧ c.toNat ≤ 57 := by
  simpa [Char.isDigit, UInt32.le_iff_toNat_le] using h

theorem digit?_of_isDigit {c : Char} (h : c.isDigit = true) :
    digit? 10 c = some (c.toNat - '0'.toNat) := by
  obtain ⟨hlower, hupper⟩ := toNat_bounds_of_isDigit h
  have hvalue : Hex.value? c = some (c.toNat - 48) := by
    unfold Hex.value?
    rw [if_pos ⟨hlower, hupper⟩]
  rw [digit?, hvalue, Option.filter_some, if_pos]
  · rfl
  · exact decide_eq_true (by omega)

theorem digitsFrom?_eq {digits : List Char} (h : ∀ c ∈ digits, c.isDigit = true) (number : Nat) :
    digitsFrom? 10 number digits = some (Nat.ofDigitChars 10 digits number) := by
  induction digits generalizing number with
  | nil => rfl
  | cons c digits ih =>
      rw [digitsFrom?, digit?_of_isDigit (h c List.mem_cons_self)]
      exact (ih (fun d hd => h d (List.mem_cons_of_mem c hd)) _).trans (by
        rw [Nat.ofDigitChars_cons, Nat.mul_comm])

theorem isDigit_of_mem_toDigits {n : Nat} {c : Char} (h : c ∈ Nat.toDigits 10 n) :
    c.isDigit = true :=
  Nat.isDigit_of_mem_toDigits (by decide) (by decide) h

theorem natural?_toDigits (n : Nat) : natural? 10 (Nat.toDigits 10 n) = some n := by
  have hsome : (Nat.toDigits 10 n).isEmpty = false :=
    List.isEmpty_eq_false_iff.mpr Nat.toDigits_ne_nil
  rw [natural?, hsome, if_neg Bool.false_ne_true, digitsFrom?_eq fun c => isDigit_of_mem_toDigits,
    Nat.ofDigitChars_toDigits (by decide) (by decide)]

/-- Digits alone are a decimal without a fraction. -/
theorem magnitude?_toDigits (n : Nat) : magnitude? (Nat.toDigits 10 n) = some ⟨n, 0⟩ := by
  have hwhole : (Nat.toDigits 10 n).takeWhile Char.isDigit = Nat.toDigits 10 n :=
    List.takeWhile_eq_self_iff.mpr fun c => isDigit_of_mem_toDigits
  have hrest : (Nat.toDigits 10 n).dropWhile Char.isDigit = [] :=
    List.dropWhile_eq_nil_iff.mpr fun c => isDigit_of_mem_toDigits
  unfold magnitude?
  simp [hwhole, hrest, natural?_toDigits, exponent?]

theorem ne_of_isDigit {c mark : Char} (h : c.isDigit = true) (hmark : mark.isDigit = false) :
    c ≠ mark := by
  rintro rfl
  rw [h] at hmark
  cases hmark

theorem isBlank_of_isDigit {c : Char} (h : c.isDigit = true) : Blank.isBlank c = false := by
  obtain ⟨hlower, hupper⟩ := toNat_bounds_of_isDigit h
  unfold Blank.isBlank
  simp
  omega

theorem afterHexMark?_toDigits (n : Nat) : afterHexMark? (Nat.toDigits 10 n) = none := by
  have hdigit (mark : Char) (h : mark ∈ Nat.toDigits 10 n) : mark.isDigit = true :=
    isDigit_of_mem_toDigits h
  unfold afterHexMark?
  split
  · next heq => exact absurd (hdigit 'x' (by simp [heq])) (by decide)
  · next heq => exact absurd (hdigit 'X' (by simp [heq])) (by decide)
  · rfl

theorem real?_of_plain {chars : List Char} (hplus : chars.head? ≠ some '+')
    (hminus : chars.head? ≠ some '-') :
    real? chars = (magnitude? chars).bind fun number =>
      let bits := number.nearestBits binary64 false
      if bits % binary64.signBit = binary64.infinityBits then none else some bits := by
  unfold real?
  split
  · next heq =>
      split at heq
      · exact absurd rfl hplus
      · exact absurd rfl hminus
      · cases heq
        rfl

theorem nearestBits_whole {n : Nat} (h : n ≤ 2 ^ 53) :
    Scientific.nearestBits binary64 false ⟨n, 0⟩ = nearestBits binary64 false ⟨n, 1⟩ := by
  rcases Nat.eq_zero_or_pos n with rfl | hpositive
  · rfl
  · have hlength : (Nat.toDigits 10 n).length ≤ 16 :=
      (Nat.length_toDigits_le_iff (by decide) (by decide)).mpr (by omega)
    have hcount : digitCount n = (Nat.toDigits 10 n).length := if_neg hpositive.ne'
    unfold Scientific.nearestBits
    simp only [hcount]
    rw [if_neg (by omega), if_neg (by omega)]
    simp [Scientific.ratio]

/-- A number that is one of the format is read as its own pattern. -/
theorem real?_toDigits {n : Nat} (h : n ≤ 2 ^ 53) :
    real? (Nat.toDigits 10 n) = some (nearestBits binary64 false ⟨n, 1⟩) := by
  have hhead (mark : Char) (hmark : mark.isDigit = false) :
      (Nat.toDigits 10 n).head? ≠ some mark := fun hfirst =>
    ne_of_isDigit (isDigit_of_mem_toDigits (List.mem_of_mem_head? hfirst)) hmark rfl
  have hfinite := mod_lt_of_value? (Ratio.nearestBits_lt false ⟨n, 1⟩)
    (value?_nearestBits_natCast false h)
  rw [real?_of_plain (hhead '+' rfl) (hhead '-' rfl), magnitude?_toDigits, Option.bind_some,
    nearestBits_whole h]
  exact if_neg hfinite.ne

end Numeral

/-!
## Requests for numbers
-/

namespace SearchRequest

/-- The request for the constants that a text writes. -/
def literalOf (text : String) : SearchRequest :=
  { mode := .literal, keywords := [{ kind := .contains, text }] }

theorem toList_toString (n : Nat) : (toString n).toList = Nat.toDigits 10 n := by
  rw [Nat.toString_eq_repr, Nat.repr, String.toList_ofList]

theorem isDigit_of_toList_toString {n : Nat} {first : Char} {rest : List Char}
    (h : (toString n).toList = first :: rest) : first.isDigit = true := by
  rw [toList_toString] at h
  exact Numeral.isDigit_of_mem_toDigits (h ▸ List.mem_cons_self)

theorem isWord_digits (n : Nat) : IsWord ("c:" ++ toString n) := by
  refine ⟨by simp, fun c hc => ?_⟩
  have hcases : c = 'c' ∨ c = ':' ∨ c.isDigit = true := by
    rw [String.toList_append, toList_toString] at hc
    rcases List.mem_append.mp hc with hprefix | hdigit
    · have hletters : c = 'c' ∨ c = ':' := by simpa using hprefix
      exact hletters.imp_right .inl
    · exact .inr (.inr (Numeral.isDigit_of_mem_toDigits hdigit))
  rcases hcases with rfl | rfl | hdigit
  · decide
  · decide
  · exact ⟨Numeral.isBlank_of_isDigit hdigit, Numeral.ne_of_isDigit hdigit rfl⟩

theorem splitTerms_digits (n : Nat) : splitTerms ("c:" ++ toString n) = ["c:" ++ toString n] := by
  have hspaced : Spaced (["c:" ++ toString n].map id) ("c:" ++ toString n) := .single _
  refine hspaced.splitTerms_eq fun word hword => ?_
  rw [List.mem_singleton.mp hword]
  exact (isWord_digits n).readsAs

theorem keyword_digits (n : Nat) :
    Keyword.parse (toString n) = { kind := .contains, text := toString n } := by
  unfold Keyword.parse
  split
  · next mark c rest heq =>
      have hmark := isDigit_of_toList_toString heq
      have hkind : KeywordKind.ofMark? mark = none := by
        unfold KeywordKind.ofMark?
        split
        case h_5 => rfl
        all_goals cases hmark
      rw [hkind]
  · rfl

theorem splitColon?_digits (n : Nat) :
    splitColon? ("c:" ++ toString n) = some ("c", toString n) := by
  simp [splitColon?, Nat.repr]

/-- What begins with a digit is neither a pattern nor a token. -/
theorem addBody_digits (request : SearchRequest) (source : Option String) (n : Nat) :
    request.addBody source (toString n) = (request.addKeyword (toString n), source) := by
  have hslashed : slashed? (toString n) = none := by
    unfold slashed?
    split
    · next heq => exact absurd (isDigit_of_toList_toString heq) (by decide)
    · rfl
  unfold addBody
  rw [hslashed]
  simp only
  split
  · next heq => exact absurd (isDigit_of_toList_toString heq) (by decide)
  · rfl

theorem parse_digits (n : Nat) : parse ("c:" ++ toString n) = .ok (literalOf (toString n)) := by
  have hsome : (toString n).isEmpty = false := by
    rw [Bool.eq_false_iff, ne_eq, String.isEmpty_iff, ← String.toList_eq_nil_iff, toList_toString]
    exact Nat.toDigits_ne_nil
  have hterm : ({} : SearchRequest).addTerm none ("c:" ++ toString n) =
      (literalOf (toString n), none) := by
    rw [addTerm, splitColon?_digits]
    have hmode : SearchMode.ofPrefix? (String.ofList (Path.asciiFold "c")) = some .literal := rfl
    simp only [hmode, addBody_digits, addKeyword, hsome, keyword_digits]
    rfl
  rw [parse, splitTerms_digits]
  simp only [List.foldl_cons, List.foldl_nil, hterm]

/-- The number that the request is for, as the nearest pattern. -/
theorem number?_literalOf {n : Nat} (h : n ≤ 2 ^ 53) :
    (literalOf (toString n)).number? = some (nearestBits binary64 false ⟨n, 1⟩) := by
  simp only [number?, literalOf, toList_toString, Numeral.afterHexMark?_toDigits]
  exact Numeral.real?_toDigits h

end SearchRequest

/-!
## Constants as numbers
-/

namespace Constant

/-- The number that a constant is; of the truth values, one is `1` and the other one is `0`. -/
def value? : Constant → Option ℚ
  | boolean value => some (if value then 1 else 0)
  | integer _ value => some value
  | single bits => (Binary.ofBits binary32 bits).value?
  | double bits => (Binary.ofBits binary64 bits).value?
  | char _ => none
  | text _ => none
  | null => none

/-- An eight-byte number has no more bits than eight bytes have. -/
def FitsBytes : Constant → Prop
  | double bits => bits < 2 ^ 64
  | _ => True

instance : DecidablePred FitsBytes
  | double bits => inferInstanceAs (Decidable (bits < 2 ^ 64))
  | boolean _ | integer _ _ | single _ | char _ | text _ | null => isTrue trivial

/-- A search for a whole number finds the constants that are this number. Integers are rounded
before they are compared, so a search for `2 ^ 53` finds the next one too. -/
def IsFoundBy (constant : Constant) (n : Nat) : Prop :=
  constant.value? = some (n : ℚ) ∨ n = 2 ^ 53 ∧ ∃ type, constant = .integer type (2 ^ 53 + 1)

variable {constant : Constant} {n : Nat}

theorem sameNumber_nearest_iff {bits : Nat} (h : n ≤ 2 ^ 53) (hbits : bits < 2 ^ 64) :
    sameNumber (nearestBits binary64 false ⟨n, 1⟩) bits = true ↔
      (Binary.ofBits binary64 bits).value? = some (n : ℚ) :=
  sameNumber_iff (Ratio.nearestBits_lt false _) hbits (value?_nearestBits_natCast false h)

theorem sameNumber_number?_iff (hfits : constant.FitsBytes) (h : n ≤ 2 ^ 53) :
    constant.number?.any (sameNumber (nearestBits binary64 false ⟨n, 1⟩)) = true ↔
      constant.IsFoundBy n := by
  have hinteger (value : Int) :
      sameNumber (nearestBits binary64 false ⟨n, 1⟩) (nearestOfInt binary64 value) = true ↔
        (value : ℚ) = n ∨ n = 2 ^ 53 ∧ value = 2 ^ 53 + 1 := by
    rw [sameNumber_nearest_iff h (nearestOfInt_lt value), value?_nearestOfInt_iff h]
    exact or_congr_left (by exact_mod_cast Iff.rfl)
  cases constant with
  | boolean value =>
      cases value <;> simp [number?, hinteger, IsFoundBy, value?]
  | integer type value => simp [number?, hinteger, IsFoundBy, value?]
  | single bits =>
      simp [number?, sameNumber_nearest_iff h (widen_lt bits), value?_ofBits_widen, IsFoundBy,
        value?]
  | double bits => simp [number?, sameNumber_nearest_iff h hfits, IsFoundBy, value?]
  | char | text | null => simp [number?, IsFoundBy, value?]

end Constant

/-!
## Searches
-/

/-- A field is a constant of some type, and a search for a whole number finds its value. -/
def CodeModule.IsLiteral (m : CodeModule) (n : Nat) (field : FieldDefinition) : Prop :=
  (∃ owner, m.type? field.declaringType = some owner) ∧
    ∃ constant, field.constant = some constant ∧ constant.IsFoundBy n

namespace PlacedModule

/-- A field as a search finds it. -/
def fieldMatch (place : PlacedModule) (field : FieldDefinition) : SearchMatch :=
  { node := place.entityNode (.field field), fitness := .ofName field.name }

open scoped Classical in
/-- The constants of a module that are a whole number. -/
noncomputable def literals (place : PlacedModule) (n : Nat) : List SearchMatch :=
  (place.code.fields.toList.filter fun field => place.code.IsLiteral n field).map place.fieldMatch

theorem fieldMatch_mem_literals {place : PlacedModule} {n : Nat} {field : FieldDefinition}
    (hmem : field ∈ place.code.fields) (h : place.code.IsLiteral n field) :
    place.fieldMatch field ∈ place.literals n := by
  refine List.mem_map_of_mem (List.mem_filter.mpr ⟨Array.mem_toList_iff.mpr hmem, ?_⟩)
  simpa only [decide_eq_true_eq] using h

/-- All eight-byte numbers among the constants of a module have the bits of eight bytes. -/
def ConstantsFit (place : PlacedModule) : Prop :=
  ∀ field ∈ place.code.fields, ∀ constant ∈ field.constant, constant.FitsBytes

end PlacedModule

namespace SearchRequest

/-- The request is for the constants of all modules that are a number. -/
structure AsksFor (request : SearchRequest) (n : Nat) : Prop where
  mode : request.mode = .literal
  number : request.number? = some (nearestBits binary64 false ⟨n, 1⟩)
  inNamespace : request.inNamespace = none
  inArchive : request.inArchive = none

theorem asksFor_literalOf {n : Nat} (h : n ≤ 2 ^ 53) : (literalOf (toString n)).AsksFor n where
  mode := rfl
  number := number?_literalOf h
  inNamespace := rfl
  inArchive := rfl

namespace AsksFor

variable {request : SearchRequest} {n : Nat} (hasks : request.AsksFor n) (h : n ≤ 2 ^ 53)
include hasks

theorem isEmpty : request.isEmpty = false := by
  have hnumber := hasks.number
  unfold SearchRequest.isEmpty
  cases hkeywords : request.keywords with
  | nil => simp [number?, hkeywords] at hnumber
  | cons => rfl

include h

theorem literalMatches_eq {place : PlacedModule} (hfits : place.ConstantsFit) :
    request.literalMatches place = place.literals n := by
  unfold literalMatches PlacedModule.literals
  refine congrArg _ (List.filter_congr fun field hfield => ?_)
  have hmem := Array.mem_toList_iff.mp hfield
  have howner : (place.code.type? field.declaringType).any (fun owner =>
      request.coversNamespace (place.code.outermostNamespace owner)) = true ↔
        ∃ owner, place.code.type? field.declaringType = some owner := by
    simp [coversNamespace, hasks.inNamespace, Option.isSome_iff_exists]
  have hconstant : field.constant.any request.acceptsConstant = true ↔
      ∃ constant, field.constant = some constant ∧ constant.IsFoundBy n := by
    rw [Option.any_eq_true]
    refine exists_congr fun constant => and_congr_right fun hsome => ?_
    simp only [acceptsConstant, hasks.number]
    exact Constant.sameNumber_number?_iff (hfits field hmem constant hsome) h
  rw [Bool.eq_iff_iff, Bool.and_eq_true, howner, hconstant]
  simp only [decide_eq_true_eq]
  exact and_comm

theorem search_perm {store : Store} (hfits : ∀ place ∈ store.modules, place.ConstantsFit) :
    (store.search request).Perm (store.modules.flatMap fun place => place.literals n) := by
  have hmode : request.mode.searchesDefinitions = true := by
    rw [hasks.mode]
    rfl
  have hmatches : ∀ place ∈ store.modules, request.moduleMatches place = place.literals n := by
    intro place hplace
    unfold moduleMatches
    rw [hasks.mode]
    exact hasks.literalMatches_eq h (hfits place hplace)
  rw [← List.flatMap_congr hmatches]
  exact search_perm_modules hmode hasks.inArchive hasks.isEmpty store

/-- A constant that is the number is found. -/
theorem mem_search {store : Store} (hfits : ∀ place ∈ store.modules, place.ConstantsFit)
    {place : PlacedModule} {field : FieldDefinition} (hplace : place ∈ store.modules)
    (hfield : field ∈ place.code.fields) (hliteral : place.code.IsLiteral n field) :
    place.fieldMatch field ∈ store.search request :=
  (hasks.search_perm h hfits).mem_iff.mpr
    (List.mem_flatMap.mpr ⟨place, hplace, place.fieldMatch_mem_literals hfield hliteral⟩)

end AsksFor
end SearchRequest

namespace Store

/-- The query for a whole number up to `2 ^ 53` finds the constants of all modules that are this
number, and nothing else, but for the one integer that is rounded to the greatest of them. -/
theorem integer_literals_find_themselves {store : Store} {n : Nat} (h : n ≤ 2 ^ 53)
    (hfits : ∀ place ∈ store.modules, place.ConstantsFit) :
    ∃ request, SearchRequest.parse ("c:" ++ toString n) = .ok request ∧
      (store.search request).Perm (store.modules.flatMap fun place => place.literals n) :=
  ⟨_, SearchRequest.parse_digits n, (SearchRequest.asksFor_literalOf h).search_perm h hfits⟩

/-- A type with three constants that are five, of three types, and one that is not. -/
def fivesModule : CodeModule :=
  (CodeModule.ofSteps "M"
    [.type "N" "A" .classType 0,
      .constant (TableId.typeDef.token 2) "whole" .object (.integer .int32 5),
      .constant (TableId.typeDef.token 2) "narrow" .object (.single 0x40A00000),
      .constant (TableId.typeDef.token 2) "wide" .object (.double 0x4014000000000000),
      .constant (TableId.typeDef.token 2) "negative" .object (.integer .int32 (-5))]).1

theorem constantsFit_fivesModule : ∀ place ∈ (holding fivesModule).modules, place.ConstantsFit := by
  intro place hplace
  rw [List.mem_singleton.mp hplace]
  unfold PlacedModule.ConstantsFit
  decide

theorem integer_literals_find_themselves_five :
    (∃ request, SearchRequest.parse ("c:" ++ toString 5) = .ok request ∧
      ((holding fivesModule).search request).Perm ((onlyPlace fivesModule).literals 5)) ∧
      (Constant.integer .int32 5).IsFoundBy 5 ∧ (Constant.single 0x40A00000).IsFoundBy 5 ∧
      (Constant.double 0x4014000000000000).IsFoundBy 5 ∧
      ¬ (Constant.integer .int32 (-5)).IsFoundBy 5 := by
  have hnarrow : Binary.ofBits binary32 0x40A00000 = .finite false 0xA00000 (-21) false := by
    decide
  have hwide : Binary.ofBits binary64 0x4014000000000000 =
      .finite false 0x14000000000000 (-50) false := by
    decide
  refine ⟨?_, ?_, ?_, ?_, ?_⟩
  · obtain ⟨request, hparse, hfound⟩ := @integer_literals_find_themselves (holding fivesModule) 5
      (by decide) constantsFit_fivesModule
    refine ⟨request, hparse, hfound.trans (List.Perm.of_eq ?_)⟩
    exact List.flatMap_singleton _ _
  · exact .inl (by norm_num [Constant.value?])
  · exact .inl (by norm_num [Constant.value?, hnarrow, Binary.value?, signed, zpow_neg])
  · exact .inl (by norm_num [Constant.value?, hwide, Binary.value?, signed, zpow_neg])
  · rintro (hsame | ⟨hlarge, -⟩)
    · norm_num [Constant.value?] at hsame
    · norm_num at hlarge

/-- A type with a constant that binary64 cannot tell from `2 ^ 53`. -/
def neighbourModule : CodeModule :=
  (CodeModule.ofSteps "M"
    [.type "N" "A" .classType 0,
      .constant (TableId.typeDef.token 2) "next" .object (.integer .int64 (2 ^ 53 + 1))]).1

theorem constantsFit_neighbourModule :
    ∀ place ∈ (holding neighbourModule).modules, place.ConstantsFit := by
  intro place hplace
  rw [List.mem_singleton.mp hplace]
  unfold PlacedModule.ConstantsFit
  decide

/-- The request that a query for a negative number is read as: the sign is the mark of a keyword. -/
def literalWithout (text : String) : SearchRequest :=
  { mode := .literal, keywords := [{ kind := .excluded, text }] }

/-- Some queries find a constant that is another number than the one that is asked for: the query
for `2 ^ 53` finds the next number, and the one for `-5` finds five. -/
theorem literals_find_others :
    (∃ field ∈ neighbourModule.fields, ∃ constant, field.constant = some constant ∧
      constant.value? = some (2 ^ 53 + 1) ∧
      ∃ request, SearchRequest.parse ("c:" ++ toString (2 ^ 53 : Int)) = .ok request ∧
        (onlyPlace neighbourModule).fieldMatch field ∈
          (holding neighbourModule).search request) ∧
      ∃ field ∈ fivesModule.fields, ∃ constant, field.constant = some constant ∧
        constant.value? = some 5 ∧
        ∃ request, SearchRequest.parse ("c:" ++ toString (-5 : Int)) = .ok request ∧
          (onlyPlace fivesModule).fieldMatch field ∈ (holding fivesModule).search request := by
  constructor
  · refine ⟨neighbourModule.fields[0], Array.getElem_mem _, .integer .int64 (2 ^ 53 + 1), rfl,
      by norm_num [Constant.value?], _, SearchRequest.parse_digits (2 ^ 53), ?_⟩
    exact (SearchRequest.asksFor_literalOf le_rfl).mem_search le_rfl constantsFit_neighbourModule
      (List.mem_singleton_self _) (Array.getElem_mem _) ⟨⟨_, rfl⟩, _, rfl, .inr ⟨rfl, .int64, rfl⟩⟩
  · have hasks : (literalWithout "5").AsksFor 5 :=
      { mode := rfl, number := rfl, inNamespace := rfl, inArchive := rfl }
    refine ⟨fivesModule.fields[0], Array.getElem_mem _, .integer .int32 5, rfl,
      by norm_num [Constant.value?], literalWithout "5", rfl, ?_⟩
    exact hasks.mem_search (by decide) constantsFit_fivesModule (List.mem_singleton_self _)
      (Array.getElem_mem _) ⟨⟨_, rfl⟩, _, rfl, .inl (by norm_num [Constant.value?])⟩

end Store
end AssemblyBrowser
