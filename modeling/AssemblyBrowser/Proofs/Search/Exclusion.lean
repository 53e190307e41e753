import Mathlib.Data.List.Infix
import AssemblyBrowser.Proofs.Browsing.Agreement

/-!
# Excluded types

A keyword may exclude the names that its text occurs in. A name is accepted only if
all keywords accept it, so that an accepted name is free of excluded texts. A generic
type is compared under two names, unless generics are left out: one has its arity, the
other its parameters. It is enough that one of them is accepted, and an excluded text
may stand in the other.
-/

namespace AssemblyBrowser

/-!
## Names that keywords exclude
-/

theorem occursIn_iff {wanted text : List Char} :
    occursIn wanted text = true ↔ wanted <:+: text := by
  induction text with
  | nil => rw [occursIn, List.isEmpty_iff, List.infix_nil]
  | cons c rest ih =>
      rw [occursIn, Bool.or_eq_true, List.isPrefixOf_iff_prefix, ih, List.infix_cons_iff]

/-- A text occurs in a name, whatever the case of their letters. -/
def OccursIgnoringCase (text name : String) : Prop :=
  Unicode.lowerChars text.toList <:+: Unicode.lowerChars name.toList

instance (text name : String) : Decidable (OccursIgnoringCase text name) :=
  inferInstanceAs (Decidable (_ <:+: _))

theorem Keyword.accepts_iff_of_excluded {keyword : Keyword} (h : keyword.kind = .excluded)
    (name : String) : keyword.accepts name = true ↔ ¬ OccursIgnoringCase keyword.text name := by
  have haccepts : keyword.accepts name =
      !occursIn (Unicode.lowerChars keyword.text.toList) (Unicode.lowerChars name.toList) := by
    unfold accepts
    rw [h]
  rw [haccepts, OccursIgnoringCase, ← occursIn_iff, Bool.not_eq_true, Bool.not_eq_true']

namespace SearchRequest

variable {request : SearchRequest} {store : Store} {place : PlacedModule} {type : TypeDefinition}
  {name : String} {found : SearchMatch}

/-- The text of a keyword that excludes names occurs in the name. -/
def Excludes (request : SearchRequest) (name : String) : Prop :=
  ∃ keyword ∈ request.keywords, keyword.kind = .excluded ∧ OccursIgnoringCase keyword.text name

theorem not_excludes_of_acceptsText (h : request.acceptsText name = true) :
    ¬ request.Excludes name := by
  rintro ⟨keyword, hmem, hkind, hoccurs⟩
  have hall := List.all_eq_true.mp (Bool.and_eq_true_iff.mp h).1
  exact (Keyword.accepts_iff_of_excluded hkind name).mp (hall keyword hmem) hoccurs

theorem isEmpty_of_excludes (h : request.Excludes name) : request.isEmpty = false := by
  obtain ⟨keyword, hmem, -⟩ := h
  unfold isEmpty
  rw [List.isEmpty_eq_false_iff.mpr (List.ne_nil_of_mem hmem), Bool.false_and]

/-!
## Names that types are compared under
-/

/-- A name as it is compared: without arities where generics are left out. -/
def compared (request : SearchRequest) (name : String) : String :=
  if request.omitsGenerics then stripArities name else name

/-- The names that a type is compared under. -/
def comparedNames (request : SearchRequest) (code : CodeModule) (type : TypeDefinition) :
    List String :=
  (request.typeNames code type).map request.compared

/-- The name of a type in the metadata, or its full name where full names are compared. -/
def metadataName (request : SearchRequest) (code : CodeModule) (type : TypeDefinition) : String :=
  if request.matchesFullNames then code.fullName type.token else type.name

/-- The same name with generic parameters in the place of the arity. -/
def genericName (request : SearchRequest) (code : CodeModule) (type : TypeDefinition) : String :=
  let name := request.metadataName code type
  String.ofList (name.toList.take (name.length - type.name.length)) ++ type.displayName

theorem acceptsAny_typeNames : request.acceptsAny (request.typeNames place.code type) = true ↔
    ∃ name ∈ request.comparedNames place.code type, request.acceptsText name = true := by
  rw [comparedNames, acceptsAny, List.any_eq_true]
  constructor
  · rintro ⟨name, hmem, haccepts⟩
    exact ⟨_, List.mem_map_of_mem hmem, haccepts⟩
  · rintro ⟨name, hmem, haccepts⟩
    obtain ⟨original, horiginal, rfl⟩ := List.mem_map.mp hmem
    exact ⟨original, horiginal, haccepts⟩

/-- A generic type is compared under two names unless generics are left out. -/
theorem comparedNames_of_generic (homits : request.omitsGenerics = false)
    (hgeneric : type.genericParameters ≠ []) (code : CodeModule) :
    request.comparedNames code type =
      [request.metadataName code type, request.genericName code type] := by
  have hnames : request.typeNames code type =
      [request.metadataName code type, request.genericName code type] := by
    unfold typeNames
    rw [homits, List.isEmpty_eq_false_iff.mpr hgeneric]
    rfl
  have hcompared : request.compared = id := by
    funext name
    rw [compared, homits]
    rfl
  rw [comparedNames, hnames, hcompared, List.map_id]

/-- Otherwise a type is compared under one name. -/
theorem comparedNames_of_not_generic
    (h : ¬ (request.omitsGenerics = false ∧ type.genericParameters ≠ [])) (code : CodeModule) :
    request.comparedNames code type = [request.compared (request.metadataName code type)] := by
  have hone : (request.omitsGenerics || type.genericParameters.isEmpty) = true := by
    rw [Bool.or_eq_true, List.isEmpty_iff]
    by_contra hnone
    rw [not_or, Bool.not_eq_true] at hnone
    exact h hnone
  have hnames : request.typeNames code type = [request.metadataName code type] := by
    unfold typeNames
    rw [hone]
    rfl
  rw [comparedNames, hnames, List.map_singleton]

/-- Two names of a type are those with the arity and with the parameters. -/
theorem names_of_ne {code : CodeModule} {first second : String}
    (hfirst : first ∈ request.comparedNames code type)
    (hsecond : second ∈ request.comparedNames code type) (hne : first ≠ second) :
    request.omitsGenerics = false ∧ type.genericParameters ≠ [] ∧
      (first = request.metadataName code type ∧ second = request.genericName code type ∨
        first = request.genericName code type ∧ second = request.metadataName code type) := by
  by_cases htwo : request.omitsGenerics = false ∧ type.genericParameters ≠ []
  · rw [comparedNames_of_generic htwo.1 htwo.2, List.mem_pair] at hfirst hsecond
    refine ⟨htwo.1, htwo.2, ?_⟩
    rcases hfirst with hfirst | hfirst
    · exact .inl ⟨hfirst, hsecond.resolve_left fun hsame => hne (hfirst.trans hsame.symm)⟩
    · exact .inr ⟨hfirst, hsecond.resolve_right fun hsame => hne (hfirst.trans hsame.symm)⟩
  · rw [comparedNames_of_not_generic htwo, List.mem_singleton] at hfirst hsecond
    exact absurd (hfirst.trans hsecond.symm) hne

/-!
## Types that a search returns
-/

/-- The search comes to a type of a module in the store. -/
def Searches (request : SearchRequest) (store : Store) (place : PlacedModule)
    (type : TypeDefinition) : Prop :=
  ∃ archive ∈ store.archives, place ∈ archive.modules ∧
    request.coversArchive archive (some place.code) = true ∧ type ∈ place.code.types ∧
    request.coversType place.code type = true

/-- The search comes to a type and returns it. -/
structure Returns (request : SearchRequest) (store : Store) (place : PlacedModule)
    (type : TypeDefinition) : Prop where
  asks : request.isEmpty = false
  searches : request.Searches store place type
  found : request.typeMatch place type ≠ []

theorem typeMatch_ne_nil_iff (hmode : request.mode.wantsTypes = true) :
    request.typeMatch place type ≠ [] ↔
      ∃ name ∈ request.comparedNames place.code type, request.acceptsText name = true := by
  rw [← acceptsAny_typeNames, typeMatch, hmode, Bool.true_and]
  cases request.acceptsAny (request.typeNames place.code type) <;> simp

theorem typeMatch_eq (h : request.typeMatch place type ≠ []) :
    request.mode.wantsTypes = true ∧ request.typeMatch place type =
      [{ node := place.typeNode type, fitness := .ofName type.name }] := by
  unfold typeMatch at h ⊢
  split at h
  case isTrue hwanted => exact ⟨(Bool.and_eq_true_iff.mp hwanted).1, if_pos hwanted⟩
  case isFalse => exact absurd rfl h

theorem mem_matchesIn_of_definition (hmode : request.mode.wantsTypes = true)
    {archive : LoadedArchive} (hplace : place ∈ archive.modules)
    (hcovers : request.coversArchive archive (some place.code) = true)
    (h : found ∈ request.definitionMatches place) : found ∈ request.matchesIn archive := by
  have hmodule : found ∈ request.moduleMatches place := by
    unfold moduleMatches
    split
    case h_5 => exact h
    all_goals
      rename_i hother
      rw [hother] at hmode
      cases hmode
  have hcovered : place ∈ archive.modules.filter fun place =>
      request.coversArchive archive (some place.code) := List.mem_filter.mpr ⟨hplace, hcovers⟩
  unfold matchesIn
  split
  case h_1 text hother =>
    rw [hother] at hmode
    cases hmode
  case h_2 => exact List.mem_append_right _ (List.mem_flatMap.mpr ⟨place, hcovered, hmodule⟩)

/-- A type that is returned is among what is found, by its node. -/
theorem Returns.mem_search (h : request.Returns store place type) :
    { node := place.typeNode type, fitness := .ofName type.name } ∈ store.search request := by
  obtain ⟨archive, harchive, hplace, hcovers, htype, hcovered⟩ := h.searches
  obtain ⟨hmode, hmatch⟩ := typeMatch_eq h.found
  have hdefinition : { node := place.typeNode type, fitness := .ofName type.name } ∈
      request.definitionMatches place := by
    refine List.mem_flatMap.mpr ⟨type, List.mem_filter.mpr ⟨Array.mem_toList_iff.mpr htype,
      hcovered⟩, List.mem_append_left _ ?_⟩
    rw [hmatch]
    exact List.mem_singleton_self _
  unfold Store.search
  rw [h.asks]
  exact List.mem_mergeSort.mpr (List.mem_flatMap.mpr
    ⟨archive, harchive, mem_matchesIn_of_definition hmode hplace hcovers hdefinition⟩)

/-!
## Exclusion
-/

/-- The types that a search returns are free of excluded texts, with one exception: where a generic
type is compared under two names, one may be accepted and the other excluded. -/
theorem exclusion_excludes_iff (hmode : request.mode.wantsTypes = true)
    (hsearches : request.Searches store place type) :
    (request.Returns store place type →
      { node := place.typeNode type, fitness := .ofName type.name } ∈ store.search request) ∧
    ((request.Returns store place type →
        ∀ name ∈ request.comparedNames place.code type, ¬ request.Excludes name) ↔
      ¬ (request.omitsGenerics = false ∧ type.genericParameters ≠ [] ∧
        (request.acceptsText (request.metadataName place.code type) = true ∧
            request.Excludes (request.genericName place.code type) ∨
          request.acceptsText (request.genericName place.code type) = true ∧
            request.Excludes (request.metadataName place.code type)))) := by
  refine ⟨Returns.mem_search, ?_, ?_⟩
  · rintro hholds ⟨homits, hgeneric, hmixed⟩
    have hnames := comparedNames_of_generic homits hgeneric place.code
    have hnone {accepted excluded : String} (haccepts : request.acceptsText accepted = true)
        (hexcludes : request.Excludes excluded)
        (haccepted : accepted ∈ request.comparedNames place.code type)
        (hexcluded : excluded ∈ request.comparedNames place.code type) : False := by
      have hfound := (typeMatch_ne_nil_iff hmode).mpr ⟨accepted, haccepted, haccepts⟩
      exact hholds ⟨isEmpty_of_excludes hexcludes, hsearches, hfound⟩ excluded hexcluded hexcludes
    rw [hnames] at hnone
    rcases hmixed with ⟨haccepts, hexcludes⟩ | ⟨haccepts, hexcludes⟩
    · exact hnone haccepts hexcludes List.mem_cons_self (List.mem_pair.mpr (.inr rfl))
    · exact hnone haccepts hexcludes (List.mem_pair.mpr (.inr rfl)) List.mem_cons_self
  · intro hplain hreturns name hmem hexcludes
    obtain ⟨accepted, haccepted, haccepts⟩ := (typeMatch_ne_nil_iff hmode).mp hreturns.found
    have hne : accepted ≠ name := by
      rintro rfl
      exact not_excludes_of_acceptsText haccepts hexcludes
    obtain ⟨homits, hgeneric, ⟨rfl, rfl⟩ | ⟨rfl, rfl⟩⟩ := names_of_ne haccepted hmem hne
    · exact hplain ⟨homits, hgeneric, .inl ⟨haccepts, hexcludes⟩⟩
    · exact hplain ⟨homits, hgeneric, .inr ⟨haccepts, hexcludes⟩⟩

section Sample

/-- A type with a generic parameter. -/
def bagType : TypeDefinition :=
  { token := TableId.typeDef.token 1, namespaceName := "N", name := "Bag`1", flags := 0
    genericParameters := ["T"] }

def bagModule : CodeModule :=
  { name := "M", runtimeVersion := "", types := #[bagType] }

/-- The request for all types but those with a text in their names. -/
def typesWithout (text : String) : SearchRequest :=
  { mode := .type, keywords := [{ kind := .excluded, text }] }

theorem searches_bagType (text : String) :
    (typesWithout text).Searches (Store.holding bagModule) (Store.onlyPlace bagModule) bagType :=
  ⟨_, List.mem_singleton_self _, List.mem_singleton_self _, rfl, List.mem_toArray.mpr
    (List.mem_singleton_self _), rfl⟩

theorem excludes_typesWithout {text : String} :
    (typesWithout text).Excludes name ↔ OccursIgnoringCase text name := by
  simp [Excludes, typesWithout]

section Names

variable {text : String} (hdot : '.' ∉ text.toList) (hparameter : '<' ∈ text.toList)
include hdot

theorem metadataName_bagType : (typesWithout text).metadataName bagModule bagType = "Bag`1" := by
  have hfull : (typesWithout text).matchesFullNames = false := by
    simp [matchesFullNames, typesWithout, String.contains_char_eq, hdot]
  rw [metadataName, hfull]
  rfl

theorem genericName_bagType : (typesWithout text).genericName bagModule bagType = "Bag<T>" := by
  rw [genericName, metadataName_bagType hdot]
  decide +kernel

include hparameter

theorem comparedNames_bagType :
    (typesWithout text).comparedNames bagModule bagType = ["Bag`1", "Bag<T>"] := by
  have homits : (typesWithout text).omitsGenerics = false := by
    simp [omitsGenerics, texts, typesWithout, String.contains_char_eq, hparameter]
  rw [comparedNames_of_generic homits (List.cons_ne_nil _ _), metadataName_bagType hdot,
    genericName_bagType hdot]

/-- The name with the arity is enough for a generic type to be returned. -/
theorem returns_bagType (haccepts : (typesWithout text).acceptsText "Bag`1" = true) :
    (typesWithout text).Returns (Store.holding bagModule) (Store.onlyPlace bagModule) bagType where
  asks := rfl
  searches := searches_bagType text
  found := (typeMatch_ne_nil_iff rfl).mpr
    ⟨"Bag`1", (comparedNames_bagType hdot hparameter).symm ▸ List.mem_cons_self, haccepts⟩

end Names

theorem exclusion_excludes_iff_other_parameter :
    parse "t:-<U>" = .ok (typesWithout "<U>") ∧
      (typesWithout "<U>").Returns (Store.holding bagModule) (Store.onlyPlace bagModule) bagType ∧
      { node := (Store.onlyPlace bagModule).typeNode bagType, fitness := .ofName "Bag`1" } ∈
        (Store.holding bagModule).search (typesWithout "<U>") ∧
      (typesWithout "<U>").comparedNames bagModule bagType = ["Bag`1", "Bag<T>"] ∧
      ∀ name ∈ ["Bag`1", "Bag<T>"], ¬ (typesWithout "<U>").Excludes name := by
  have hdot : '.' ∉ "<U>".toList := by decide
  have hnames := comparedNames_bagType hdot (by decide)
  have hreturns := returns_bagType hdot (by decide) (by decide +kernel)
  obtain ⟨hmem, hexclusion⟩ := exclusion_excludes_iff rfl (searches_bagType "<U>")
  refine ⟨rfl, hreturns, hmem hreturns, hnames, ?_⟩
  rw [← hnames]
  refine hexclusion.mpr ?_ hreturns
  rintro ⟨-, -, ⟨-, hexcludes⟩ | ⟨-, hexcludes⟩⟩
  · have hoccurs : OccursIgnoringCase "<U>" ((typesWithout "<U>").genericName bagModule bagType) :=
      excludes_typesWithout.mp hexcludes
    rw [genericName_bagType hdot] at hoccurs
    exact absurd hoccurs (by decide +kernel)
  · have hoccurs : OccursIgnoringCase "<U>" ((typesWithout "<U>").metadataName bagModule bagType) :=
      excludes_typesWithout.mp hexcludes
    rw [metadataName_bagType hdot] at hoccurs
    exact absurd hoccurs (by decide +kernel)

/-- The request excludes a parameter, but the name with the arity is accepted. -/
theorem excluded_type_returned :
    parse "t:-<T>" = .ok (typesWithout "<T>") ∧
      (typesWithout "<T>").Returns (Store.holding bagModule) (Store.onlyPlace bagModule) bagType ∧
      { node := (Store.onlyPlace bagModule).typeNode bagType, fitness := .ofName "Bag`1" } ∈
        (Store.holding bagModule).search (typesWithout "<T>") ∧
      "Bag<T>" ∈ (typesWithout "<T>").comparedNames bagModule bagType ∧
      (typesWithout "<T>").Excludes "Bag<T>" := by
  have hdot : '.' ∉ "<T>".toList := by decide
  have hreturns := returns_bagType hdot (by decide) (by decide +kernel)
  refine ⟨rfl, hreturns, hreturns.mem_search, ?_, excludes_typesWithout.mpr (by decide +kernel)⟩
  rw [comparedNames_bagType hdot (by decide)]
  exact List.mem_cons_of_mem _ (List.mem_singleton_self _)

end Sample

end SearchRequest
end AssemblyBrowser
