import AssemblyBrowser.Proofs.Containment.TypeSpecs
import AssemblyBrowser.Proofs.Lookup.Loading

/-!
# Names of generic parameters

Signatures refer to generic parameters by number. Where a signature becomes a type,
a parameter becomes the name that its owner gives to the number, at any depth and
behind the tokens of constructed types. Which owners are asked depends on the pass
that resolves the signature; the pass over events asks none.
-/

namespace AssemblyBrowser

/-!
## Parts of types
-/

namespace TypeExpr

/-- What a type is made of: the arguments of a generic type by their numbers, the one inner type
of an array, a pointer or a reference as number 0. -/
def inner? : TypeExpr → Nat → Option TypeExpr
  | .generic _ arguments, number => arguments[number]?
  | .vector element, 0 => some element
  | .array element _, 0 => some element
  | .pointer target, 0 => some target
  | .reference target, 0 => some target
  | _, _ => none

/-- The part of a type at the end of a path. -/
def part? (type : TypeExpr) : (path : List Nat) → Option TypeExpr
  | [] => some type
  | number :: path =>
      match type.inner? number with
      | some inner => inner.part? path
      | none => none

theorem part?_argument (name : TypeName) {arguments : List TypeExpr} {number : Nat}
    {argument : TypeExpr} (h : arguments[number]? = some argument) (path : List Nat) :
    (generic name arguments).part? (number :: path) = argument.part? path := by
  rw [part?, inner?, h]

end TypeExpr

namespace TypeSignature

/-- The token that a signature consists of. -/
def token? : TypeSignature → Option Token
  | .classType token => some token
  | .valueType token => some token
  | _ => none

end TypeSignature

namespace ImageMetadata

/-- The signature stands for a name, as the base of a generic type should: it is the token of a
definition or a reference, or that of a constructed type whose signature stands for a name. -/
inductive Plain (metadata : ImageMetadata) : TypeSignature → Prop where
  | name {signature : TypeSignature} {token : Token} (htoken : signature.token? = some token)
      (htable : token.table ≠ TableId.typeSpec.number) : Plain metadata signature
  | constructed {signature inner : TypeSignature} {token : Token}
      (htoken : signature.token? = some token) (htable : token.table = TableId.typeSpec.number)
      (hread : (metadata.blob .typeSpec token.row 0).bind Signature.typeSpec.parse = .ok inner)
      (hinner : Plain metadata inner) : Plain metadata signature

/-- Where the part of a signature shows in the type that the signature becomes. Nothing shows the
inside of function pointers, nor arguments of what is not a name. -/
inductive PartAt (metadata : ImageMetadata) : TypeSignature → List Nat → TypeSignature → Prop where
  | whole (signature : TypeSignature) : PartAt metadata signature [] signature
  | constructed {signature inner part : TypeSignature} {token : Token} {path : List Nat}
      (htoken : signature.token? = some token) (htable : token.table = TableId.typeSpec.number)
      (hread : (metadata.blob .typeSpec token.row 0).bind Signature.typeSpec.parse = .ok inner)
      (hpart : PartAt metadata inner path part) : PartAt metadata signature path part
  | argument {base argument part : TypeSignature} {arguments : List TypeSignature} {number : Nat}
      {path : List Nat} (hbase : metadata.Plain base)
      (hargument : arguments[number]? = some argument)
      (hpart : PartAt metadata argument path part) :
      PartAt metadata (.generic base arguments) (number :: path) part
  | base {base part : TypeSignature} {arguments : List TypeSignature} {path : List Nat}
      (hbase : ¬ metadata.Plain base) (hpart : PartAt metadata base path part) :
      PartAt metadata (.generic base arguments) path part
  | vector {element part : TypeSignature} {path : List Nat}
      (hpart : PartAt metadata element path part) :
      PartAt metadata (.vector element) (0 :: path) part
  | array {element part : TypeSignature} {rank : Nat} {path : List Nat}
      (hpart : PartAt metadata element path part) :
      PartAt metadata (.array element rank) (0 :: path) part
  | pointer {target part : TypeSignature} {path : List Nat}
      (hpart : PartAt metadata target path part) :
      PartAt metadata (.pointer target) (0 :: path) part
  | reference {target part : TypeSignature} {path : List Nat}
      (hpart : PartAt metadata target path part) :
      PartAt metadata (.reference target) (0 :: path) part

end ImageMetadata

/-!
## Resolving
-/

namespace TypeScope

section

variable {named : Token → Except Error TypeExpr} (generics : GenericNames)

theorem resolve_token? {signature : TypeSignature} {token : Token}
    (h : signature.token? = some token) : resolve named generics signature = named token := by
  cases signature <;> cases h <;> rfl

theorem resolveAll_eq_ok {signatures : List TypeSignature} {types : List TypeExpr}
    (h : resolveAll named generics signatures = .ok types) {number : Nat}
    {signature : TypeSignature} (hat : signatures[number]? = some signature) :
    ∃ type, types[number]? = some type ∧ resolve named generics signature = .ok type := by
  induction signatures generalizing types number with
  | nil => cases hat
  | cons first rest ih =>
      rw [resolveAll] at h
      obtain ⟨type, hfirst, h⟩ := Outcome.bind_eq_ok.mp h
      obtain ⟨others, hrest, h⟩ := Outcome.bind_eq_ok.mp h
      cases h
      cases number with
      | zero =>
          cases hat
          exact ⟨type, rfl, hfirst⟩
      | succ number => exact ih hrest hat

/-- A generic type is made of a name and arguments; without a name its base takes its place. -/
theorem resolve_generic {base : TypeSignature} {arguments : List TypeSignature} {type : TypeExpr}
    (h : resolve named generics (.generic base arguments) = .ok type) :
    ∃ shown types, resolve named generics base = .ok shown ∧
      resolveAll named generics arguments = .ok types ∧
      ((∃ name, shown = .named name ∧ type = .generic name types) ∨
        ((∀ name, shown ≠ .named name) ∧ type = shown)) := by
  rw [resolve] at h
  obtain ⟨shown, hbase, h⟩ := Outcome.bind_eq_ok.mp h
  obtain ⟨types, harguments, h⟩ := Outcome.bind_eq_ok.mp h
  refine ⟨shown, types, hbase, harguments, ?_⟩
  cases shown with
  | named name =>
      cases h
      exact .inl ⟨name, rfl, rfl⟩
  | _ =>
      cases h
      exact .inr ⟨fun _ hname => TypeExpr.noConfusion hname, rfl⟩

/-- Only a token becomes a name. -/
theorem exists_token?_of_named {signature : TypeSignature} {name : TypeName}
    (h : resolve named generics signature = .ok (.named name)) :
    ∃ token, signature.token? = some token := by
  cases signature with
  | classType token => exact ⟨token, rfl⟩
  | valueType token => exact ⟨token, rfl⟩
  | generic base arguments =>
      obtain ⟨shown, types, -, -, hgeneric⟩ := resolve_generic generics h
      rcases hgeneric with ⟨_, -, hname⟩ | ⟨hnot, hname⟩
      · cases hname
      · exact absurd hname.symm (hnot name)
  | primitive type => cases h
  | typeParameter number => cases h
  | methodParameter number => cases h
  | vector element =>
      obtain ⟨_, -, h⟩ := Outcome.bind_eq_ok.mp h
      cases h
  | array element rank =>
      obtain ⟨_, -, h⟩ := Outcome.bind_eq_ok.mp h
      cases h
  | pointer target =>
      obtain ⟨_, -, h⟩ := Outcome.bind_eq_ok.mp h
      cases h
  | reference target =>
      obtain ⟨_, -, h⟩ := Outcome.bind_eq_ok.mp h
      cases h
  | functionPointer convention genericCount result parameters => cases h

mutual

/-- A signature resolves if its tokens do. -/
theorem exists_resolve (signature : TypeSignature)
    (h : ∀ token ∈ signature.tokens, ∃ inner, named token = .ok inner) :
    ∃ type, resolve named generics signature = .ok type := by
  cases signature with
  | primitive type => exact ⟨_, rfl⟩
  | classType token => exact h token (List.mem_singleton_self token)
  | valueType token => exact h token (List.mem_singleton_self token)
  | generic base arguments =>
      obtain ⟨shown, hbase⟩ := exists_resolve base fun token hmem =>
        h token (List.mem_append_left _ hmem)
      obtain ⟨types, harguments⟩ := exists_resolveAll arguments fun token hmem =>
        h token (List.mem_append_right _ hmem)
      rw [resolve, hbase, Outcome.ok_bind, harguments, Outcome.ok_bind]
      cases shown <;> exact ⟨_, rfl⟩
  | typeParameter number => exact ⟨_, rfl⟩
  | methodParameter number => exact ⟨_, rfl⟩
  | vector element =>
      obtain ⟨inner, helement⟩ := exists_resolve element h
      exact ⟨_, by rw [resolve, helement]; rfl⟩
  | array element rank =>
      obtain ⟨inner, helement⟩ := exists_resolve element h
      exact ⟨_, by rw [resolve, helement]; rfl⟩
  | pointer target =>
      obtain ⟨inner, htarget⟩ := exists_resolve target h
      exact ⟨_, by rw [resolve, htarget]; rfl⟩
  | reference target =>
      obtain ⟨inner, htarget⟩ := exists_resolve target h
      exact ⟨_, by rw [resolve, htarget]; rfl⟩
  | functionPointer convention genericCount result parameters => exact ⟨_, rfl⟩

theorem exists_resolveAll (signatures : List TypeSignature)
    (h : ∀ token ∈ TypeSignature.allTokens signatures, ∃ inner, named token = .ok inner) :
    ∃ types, resolveAll named generics signatures = .ok types := by
  cases signatures with
  | nil => exact ⟨_, rfl⟩
  | cons signature rest =>
      obtain ⟨type, hsignature⟩ := exists_resolve signature fun token hmem =>
        h token (List.mem_append_left _ hmem)
      obtain ⟨types, hrest⟩ := exists_resolveAll rest fun token hmem =>
        h token (List.mem_append_right _ hmem)
      exact ⟨type :: types, by rw [resolveAll, hsignature, Outcome.ok_bind, hrest]; rfl⟩

end

end

theorem resolveToken_name {scope : TypeScope} {token : Token} {name : TypeName}
    (htable : token.table ≠ TableId.typeSpec.number) (hname : scope.name? token = some name)
    (generics : GenericNames) (fuel : Nat) :
    scope.resolveToken generics fuel token = .ok (.named name) := by
  cases fuel <;> rw [resolveToken, if_neg htable, hname]

/-- Whether a token resolves does not depend on names of generic parameters. -/
theorem exists_resolveToken {scope : TypeScope} {generics : GenericNames} {fuel : Nat}
    {token : Token} {type : TypeExpr} (h : scope.resolveToken generics fuel token = .ok type)
    (others : GenericNames) : ∃ shown, scope.resolveToken others fuel token = .ok shown := by
  induction fuel generalizing token type with
  | zero => exact ⟨type, h⟩
  | succ fuel ih =>
      rw [resolveToken] at h ⊢
      split at h
      case isTrue htable =>
        rw [if_pos htable]
        cases hblob : rowOf? scope.constructed token with
        | none =>
            rw [hblob] at h
            cases h
        | some blob =>
            rw [hblob] at h
            obtain ⟨signature, hsignature, hresolve⟩ := Outcome.bind_eq_ok.mp h
            dsimp only
            rw [hsignature, Outcome.ok_bind]
            refine exists_resolve others signature fun inner hmem => ?_
            obtain ⟨shown, hshown⟩ := exists_named_of_resolve generics signature hresolve inner hmem
            exact ih hshown
      case isFalse htable =>
        rw [if_neg htable]
        exact ⟨type, h⟩

/-- The signature can be resolved; which names generic parameters have does not matter. -/
def Resolves (scope : TypeScope) (signature : TypeSignature) : Prop :=
  ∃ generics type, scope.signature generics signature = .ok type

theorem Resolves.exists_signature {scope : TypeScope} {signature : TypeSignature}
    (h : scope.Resolves signature) (generics : GenericNames) :
    ∃ type, scope.signature generics signature = .ok type := by
  obtain ⟨others, type, htype⟩ := h
  refine exists_resolve generics signature fun token hmem => ?_
  obtain ⟨inner, hinner⟩ := exists_named_of_resolve others signature htype token hmem
  exact exists_resolveToken hinner generics

/-- No placeholder takes the place of what can be resolved. -/
theorem Resolves.signature_eq {scope : TypeScope} {signature : TypeSignature}
    (h : scope.Resolves signature) {generics : GenericNames} {read : Except Error TypeSignature}
    (hread : read = .ok signature) {type : TypeExpr}
    (htype : scope.signatureOrObject generics read = .ok type) :
    scope.signature generics signature = .ok type := by
  obtain ⟨shown, hshown⟩ := h.exists_signature generics
  have hbind : read.bind (scope.signature generics) = .ok shown := by
    rw [hread]
    exact hshown
  rw [signatureOrObject, hbind] at htype
  cases htype
  exact hshown

theorem Resolves.token_eq {scope : TypeScope} {token : Token}
    (h : scope.Resolves (.classType token)) {generics : GenericNames} {type : TypeExpr}
    (htype : scope.tokenOrObject generics token = .ok type) :
    scope.signature generics (.classType token) = .ok type := by
  obtain ⟨shown, hshown⟩ := h.exists_signature generics
  have htoken : scope.token generics token = .ok shown := hshown
  rw [tokenOrObject, htoken] at htype
  cases htype
  exact hshown

end TypeScope

namespace ImageMetadata

section Parts

variable {metadata : ImageMetadata} {scope : TypeScope} (hscope : metadata.Scopes scope)
  {generics : GenericNames} {fuel : Nat} {type : TypeExpr}

include hscope

/-- What the token of a constructed type resolves to is what the signature in its row does. -/
theorem exists_constructed_of_resolveToken {token : Token}
    (htable : token.table = TableId.typeSpec.number)
    (h : scope.resolveToken generics fuel token = .ok type) :
    ∃ less signature, fuel = less + 1 ∧
      (metadata.blob .typeSpec token.row 0).bind Signature.typeSpec.parse = .ok signature ∧
        TypeScope.resolve (scope.resolveToken generics less) generics signature = .ok type := by
  obtain ⟨less, blob, signature, hless, hblob, hsignature, hresolve⟩ :=
    TypeScope.exists_of_resolveToken htable h
  refine ⟨less, signature, hless, ?_, hresolve⟩
  rw [Outcome.eq_ok_of_toOption ((hscope token).symm.trans hblob)]
  exact hsignature

theorem exists_named_of_plain {signature : TypeSignature} (hplain : metadata.Plain signature)
    (h : TypeScope.resolve (scope.resolveToken generics fuel) generics signature = .ok type) :
    ∃ name, type = .named name := by
  induction hplain generalizing fuel with
  | @name signature token htoken htable =>
      rw [TypeScope.resolve_token? generics htoken] at h
      cases fuel <;>
        (rw [TypeScope.resolveToken, if_neg htable] at h
         split at h
         case h_1 name hname =>
           cases h
           exact ⟨name, rfl⟩
         case h_2 => cases h)
  | constructed htoken htable hread _ ih =>
      rw [TypeScope.resolve_token? generics htoken] at h
      obtain ⟨less, found, -, hfound, hresolve⟩ :=
        exists_constructed_of_resolveToken hscope htable h
      cases hread.symm.trans hfound
      exact ih hresolve

theorem plain_of_named {signature : TypeSignature} {name : TypeName}
    (h : TypeScope.resolve (scope.resolveToken generics fuel) generics signature =
      .ok (.named name)) : metadata.Plain signature := by
  obtain ⟨token, htoken⟩ := TypeScope.exists_token?_of_named generics h
  by_cases htable : token.table = TableId.typeSpec.number
  · rw [TypeScope.resolve_token? generics htoken] at h
    induction fuel generalizing signature token with
    | zero =>
        obtain ⟨_, _, hless, -⟩ := exists_constructed_of_resolveToken hscope htable h
        cases hless
    | succ fuel ih =>
        obtain ⟨less, inner, hless, hread, hresolve⟩ :=
          exists_constructed_of_resolveToken hscope htable h
        cases hless
        refine .constructed htoken htable hread ?_
        obtain ⟨next, hnext⟩ := TypeScope.exists_token?_of_named generics hresolve
        by_cases hfurther : next.table = TableId.typeSpec.number
        · rw [TypeScope.resolve_token? generics hnext] at hresolve
          exact ih next hresolve hnext hfurther
        · exact .name hnext hfurther
  · exact .name htoken htable

/-- A part of a signature resolves to the part of the type at the same place. -/
theorem PartAt.exists_resolved {signature part : TypeSignature} {path : List Nat}
    (hpart : metadata.PartAt signature path part)
    (h : TypeScope.resolve (scope.resolveToken generics fuel) generics signature = .ok type) :
    ∃ less shown, type.part? path = some shown ∧
      TypeScope.resolve (scope.resolveToken generics less) generics part = .ok shown := by
  induction hpart generalizing fuel type with
  | whole signature => exact ⟨fuel, type, rfl, h⟩
  | constructed htoken htable hread _ ih =>
      rw [TypeScope.resolve_token? generics htoken] at h
      obtain ⟨less, found, -, hfound, hresolve⟩ :=
        exists_constructed_of_resolveToken hscope htable h
      cases hread.symm.trans hfound
      exact ih hresolve
  | argument hbase hargument _ ih =>
      obtain ⟨shown, types, hshown, htypes, hgeneric⟩ := TypeScope.resolve_generic generics h
      obtain ⟨name, rfl⟩ := exists_named_of_plain hscope hbase hshown
      rcases hgeneric with ⟨_, -, rfl⟩ | ⟨hnot, -⟩
      · obtain ⟨inner, hinner, hresolve⟩ := TypeScope.resolveAll_eq_ok generics htypes hargument
        rw [TypeExpr.part?_argument _ hinner]
        exact ih hresolve
      · exact absurd rfl (hnot name)
  | base hbase _ ih =>
      obtain ⟨shown, types, hshown, -, hgeneric⟩ := TypeScope.resolve_generic generics h
      rcases hgeneric with ⟨name, rfl, -⟩ | ⟨-, rfl⟩
      · exact absurd (plain_of_named hscope hshown) hbase
      · exact ih hshown
  | vector _ ih =>
      obtain ⟨inner, hinner, h⟩ := Outcome.bind_eq_ok.mp h
      cases h
      exact ih hinner
  | array _ ih =>
      obtain ⟨inner, hinner, h⟩ := Outcome.bind_eq_ok.mp h
      cases h
      exact ih hinner
  | pointer _ ih =>
      obtain ⟨inner, hinner, h⟩ := Outcome.bind_eq_ok.mp h
      cases h
      exact ih hinner
  | reference _ ih =>
      obtain ⟨inner, hinner, h⟩ := Outcome.bind_eq_ok.mp h
      cases h
      exact ih hinner

end Parts

/-!
## Numbers and names
-/

/-- A row names the generic parameter of that number of an owner. -/
def HasParameter (metadata : ImageMetadata) (owner : Token) (number : Nat) (name : String) :
    Prop :=
  ∃ row, metadata.genericParameter row = .ok { owner, number, name }

/-- The rows of every owner are numbered from 0 on, each number once; the rows may stand in any
order. -/
def NumbersParameters (metadata : ImageMetadata) : Prop :=
  ∀ generics, (metadata.rows .genericParam).mapM metadata.genericParameter = .ok generics →
    ∀ owner, ∃ count,
      ((generics.filter (·.owner == owner)).map GenericParameterRow.number).Perm (List.range count)

theorem hasParameter_iff {metadata : ImageMetadata} {generics : List GenericParameterRow}
    (h : (metadata.rows .genericParam).mapM metadata.genericParameter = .ok generics)
    {owner : Token} {number : Nat} {name : String} :
    metadata.HasParameter owner number name ↔ ⟨owner, number, name⟩ ∈ generics := by
  obtain ⟨hlength, hrows⟩ := mapM_rows h
  constructor
  · rintro ⟨row, hrow⟩
    obtain ⟨_, hnumber, -⟩ := Outcome.bind_eq_ok.mp hrow
    obtain ⟨hone, hlast⟩ : 1 ≤ row ∧ row ≤ metadata.tables.rows .genericParam := by
      by_contra hnone
      rw [TableStream.value, if_pos] at hnumber
      · cases hnumber
      · rw [TableStream.rows] at hnone
        omega
    have hat := hrows (row - 1) (by omega)
    rw [Nat.sub_add_cancel hone, hrow] at hat
    rw [Except.ok.inj hat]
    exact List.getElem_mem _
  · intro hmem
    obtain ⟨index, hindex, hat⟩ := List.mem_iff_getElem.mp hmem
    exact ⟨index + 1, hat ▸ hrows index hindex⟩

/-- Names are sorted by number, so each stands at the place of its number. -/
theorem genericNamesOf_getElem? {generics : List GenericParameterRow} {owner : Token} {count : Nat}
    (h : ((generics.filter (·.owner == owner)).map GenericParameterRow.number).Perm
      (List.range count)) {number : Nat} {name : String} :
    (genericNamesOf generics owner)[number]? = some name ↔ ⟨owner, number, name⟩ ∈ generics := by
  let sorted := (generics.filter (·.owner == owner)).mergeSort fun a b => a.number ≤ b.number
  have hperm : sorted.Perm (generics.filter (·.owner == owner)) := List.mergeSort_perm _ _
  have hnumbers : sorted.map GenericParameterRow.number = List.range count := by
    refine List.Perm.eq_of_pairwise (fun a b _ _ => Nat.le_antisymm) ?_
      (List.pairwise_lt_range.imp Nat.le_of_lt) ((hperm.map _).trans h)
    refine List.pairwise_map.mpr ((List.pairwise_mergeSort ?_ ?_ _).imp of_decide_eq_true)
    · intro a b c hab hbc
      exact decide_eq_true (Nat.le_trans (of_decide_eq_true hab) (of_decide_eq_true hbc))
    · intro a b
      rcases Nat.le_total a.number b.number with hle | hle <;> simp [hle]
  have hnumber {index : Nat} {row : GenericParameterRow} (hat : sorted[index]? = some row) :
      row.number = index := by
    have hmap := congrArg (fun numbers => numbers[index]?) hnumbers
    simp only [List.getElem?_map, hat, Option.map_some] at hmap
    obtain ⟨hindex, hrange⟩ := List.getElem?_eq_some_iff.mp hmap.symm
    rw [← hrange, List.getElem_range]
  change (sorted.map GenericParameterRow.name)[number]? = some name ↔ _
  rw [List.getElem?_map, Option.map_eq_some_iff]
  constructor
  · rintro ⟨row, hat, rfl⟩
    obtain ⟨hmem, howner⟩ := List.mem_filter.mp (hperm.mem_iff.mp (List.mem_of_getElem? hat))
    rw [← hnumber hat, ← eq_of_beq howner]
    exact hmem
  · intro hmem
    have hfilter : (⟨owner, number, name⟩ : GenericParameterRow) ∈ sorted :=
      hperm.mem_iff.mpr (List.mem_filter.mpr ⟨hmem, beq_self_eq_true owner⟩)
    obtain ⟨index, hindex, hat⟩ := List.mem_iff_getElem.mp hfilter
    have hget : sorted[index]? = some ⟨owner, number, name⟩ := by
      rw [List.getElem?_eq_getElem hindex, hat]
    cases hnumber hget
    exact ⟨_, hget, rfl⟩

/-- Wherever the signature has parameters, the type shows them by these names. -/
def Shows (metadata : ImageMetadata) (ofType ofMethod : Nat → String → Prop)
    (signature : TypeSignature) (type : TypeExpr) : Prop :=
  ∀ path number name,
    (metadata.PartAt signature path (.typeParameter number) → ofType number name →
      type.part? path = some (.parameter name)) ∧
    (metadata.PartAt signature path (.methodParameter number) → ofMethod number name →
      type.part? path = some (.parameter name))

/-- What stands for the name of a parameter if none is known: a letter and the number. -/
def Unnamed (letter : String) (number : Nat) (name : String) : Prop :=
  name = letter ++ toString number

theorem shows_of_signature {metadata : ImageMetadata} {scope : TypeScope}
    (hscope : metadata.Scopes scope) {generics : GenericNames} {signature : TypeSignature}
    {type : TypeExpr} (h : scope.signature generics signature = .ok type)
    {ofType ofMethod : Nat → String → Prop}
    (htype : ∀ number name, ofType number name → generics.typeParameter number = name)
    (hmethod : ∀ number name, ofMethod number name → generics.methodParameter number = name) :
    metadata.Shows ofType ofMethod signature type := by
  obtain ⟨fuel, hfuel⟩ := TypeScope.exists_fuel
  rw [TypeScope.signature, funext (hfuel scope generics)] at h
  refine fun path number name => ⟨fun hpart hname => ?_, fun hpart hname => ?_⟩
  · obtain ⟨_, shown, hshown, hresolve⟩ := hpart.exists_resolved hscope h
    cases hresolve
    rw [hshown, htype number name hname]
  · obtain ⟨_, shown, hshown, hresolve⟩ := hpart.exists_resolved hscope h
    cases hresolve
    rw [hshown, hmethod number name hname]

theorem nameParameters_types {metadata : ImageMetadata} {unnamed named : List Parameter}
    {pointers : List Nat} (h : metadata.nameParameters unnamed pointers = .ok named) :
    named.map Parameter.type = unnamed.map Parameter.type := by
  induction pointers generalizing unnamed with
  | nil =>
      cases h
      rfl
  | cons pointer rest ih =>
      rw [nameParameters] at h
      obtain ⟨row, -, h⟩ := Outcome.bind_eq_ok.mp h
      split at h
      case isTrue => exact ih h
      case isFalse =>
        obtain ⟨sequence, -, h⟩ := Outcome.bind_eq_ok.mp h
        split at h
        case isTrue => exact ih h
        case isFalse =>
          obtain ⟨name, -, h⟩ := Outcome.bind_eq_ok.mp h
          rw [ih h]
          refine List.ext_getElem? fun index => ?_
          simp only [List.getElem?_map, List.getElem?_modify]
          cases unnamed[index]? with
          | none => rfl
          | some parameter => split <;> rfl

end ImageMetadata

/-!
## Loaded modules
-/

namespace ImageMetadata

variable {metadata : ImageMetadata} {scope : TypeScope} {names : GenericNames} {row : Nat}

/-- The types of a method come from its signature, part by part. -/
theorem methodTypes_eq {result : TypeExpr} {parameters : List Parameter}
    (h : metadata.methodTypes scope names row = .ok (result, parameters))
    {signature : MethodSignature} (hsignature : metadata.methodSignature row = .ok signature) :
    scope.signatureOrObject names (.ok signature.result) = .ok result ∧
      ∀ (number : Nat) (type : TypeSignature), signature.parameters[number]? = some type →
        ∃ parameter : Parameter, parameters[number]? = some parameter ∧
          scope.signatureOrObject names (.ok type) = .ok parameter.type := by
  obtain ⟨signature?, hattempt, h⟩ := Outcome.bind_eq_ok.mp h
  rw [methodSignature] at hsignature
  rw [hsignature] at hattempt
  cases hattempt
  obtain ⟨returned, hresult, h⟩ := Outcome.bind_eq_ok.mp h
  obtain ⟨read, hparameters, h⟩ := Outcome.bind_eq_ok.mp h
  cases h
  refine ⟨hresult, fun number type hat => ?_⟩
  obtain ⟨parameter, hfound, hread⟩ := Outcome.exists_getElem?_of_mapM hparameters hat
  obtain ⟨shown, hshown, hparameter⟩ := Outcome.bind_eq_ok.mp hread
  cases hparameter
  exact ⟨_, hfound, hshown⟩

/-- The types of a property come from its signature, part by part. -/
theorem propertyTypes_eq {type : TypeExpr} {parameters : List TypeExpr}
    (h : metadata.propertyTypes scope names row = .ok (type, parameters))
    {signature : PropertySignature} (hsignature : metadata.propertySignature row = .ok signature) :
    scope.signatureOrObject names (.ok signature.type) = .ok type ∧
      ∀ (number : Nat) (parameter : TypeSignature),
        signature.parameters[number]? = some parameter →
        ∃ shown : TypeExpr, parameters[number]? = some shown ∧
          scope.signatureOrObject names (.ok parameter) = .ok shown := by
  obtain ⟨signature?, hattempt, h⟩ := Outcome.bind_eq_ok.mp h
  rw [propertySignature] at hsignature
  rw [hsignature] at hattempt
  cases hattempt
  obtain ⟨found, htype, h⟩ := Outcome.bind_eq_ok.mp h
  obtain ⟨read, hparameters, h⟩ := Outcome.bind_eq_ok.mp h
  cases h
  exact ⟨htype, fun number parameter hat => Outcome.exists_getElem?_of_mapM hparameters hat⟩

end ImageMetadata

namespace CodeModule

/-- The type that declares a member names its generic parameter of that number. -/
def DeclaringParameter (m : CodeModule) (metadata : ImageMetadata) (declaring : Token)
    (number : Nat) (name : String) : Prop :=
  ∃ type, m.type? declaring = some type ∧ metadata.HasParameter type.token number name

/-- Generic parameters keep their names in bases and interfaces and in the types of fields,
methods and properties, wherever these can be resolved. -/
structure KeepsParameterNames (m : CodeModule) (metadata : ImageMetadata) (scope : TypeScope) :
    Prop where
  types : ∀ type ∈ m.types, ∀ number name,
    type.genericParameters[number]? = some name ↔ metadata.HasParameter type.token number name
  genericMethods : ∀ method ∈ m.methods, ∀ number name,
    method.genericParameters[number]? = some name ↔
      metadata.HasParameter method.token number name
  bases : ∀ (index : Nat) (type : TypeDefinition) (extended : Token),
    m.types[index]? = some type →
    metadata.tables.coded .typeDef (index + 1) 3 .typeDefOrRef = .ok extended →
    extended.isNull = false → scope.Resolves (.classType extended) →
      ∃ base, type.base = some base ∧
        metadata.Shows (metadata.HasParameter type.token) (ImageMetadata.Unnamed "M")
          (.classType extended) base
  interfaces : ∀ (index : Nat) (type : TypeDefinition) (implementations : List (Nat × Token))
    (number : Nat) (token : Token), m.types[index]? = some type →
    metadata.implementations = .ok implementations →
    ((implementations.filter (·.1 == index + 1)).map Prod.snd)[number]? = some token →
    scope.Resolves (.classType token) →
      ∃ interface, type.interfaces[number]? = some interface ∧
        metadata.Shows (metadata.HasParameter type.token) (ImageMetadata.Unnamed "M")
          (.classType token) interface
  fields : ∀ (index : Nat) (field : FieldDefinition) (signature : TypeSignature),
    m.fields[index]? = some field → metadata.fieldSignature (index + 1) = .ok signature →
    scope.Resolves signature →
      metadata.Shows (m.DeclaringParameter metadata field.declaringType)
        (ImageMetadata.Unnamed "M") signature field.type
  methods : ∀ (index : Nat) (method : MethodDefinition) (signature : MethodSignature),
    m.methods[index]? = some method → metadata.methodSignature (index + 1) = .ok signature →
      (scope.Resolves signature.result →
        metadata.Shows (m.DeclaringParameter metadata method.declaringType)
          (metadata.HasParameter method.token) signature.result method.returnType) ∧
      ∀ (number : Nat) (parameter : TypeSignature),
        signature.parameters[number]? = some parameter → scope.Resolves parameter →
          ∃ shown, method.parameters[number]? = some shown ∧
            metadata.Shows (m.DeclaringParameter metadata method.declaringType)
              (metadata.HasParameter method.token) parameter shown.type
  properties : ∀ (index : Nat) (property : PropertyDefinition) (signature : PropertySignature),
    m.properties[index]? = some property →
    metadata.propertySignature (index + 1) = .ok signature →
      (scope.Resolves signature.type →
        metadata.Shows (m.DeclaringParameter metadata property.declaringType)
          (ImageMetadata.Unnamed "M") signature.type property.type) ∧
      ∀ (number : Nat) (parameter : TypeSignature),
        signature.parameters[number]? = some parameter → scope.Resolves parameter →
          ∃ shown, property.parameters[number]? = some shown ∧
            metadata.Shows (m.DeclaringParameter metadata property.declaringType)
              (ImageMetadata.Unnamed "M") parameter shown

/-- The event stands in a row with this token for its type, and the token can be resolved. -/
def HasEvent (m : CodeModule) (metadata : ImageMetadata) (scope : TypeScope)
    (event : EventDefinition) (handler : Token) : Prop :=
  ∃ index : Nat, m.events[index]? = some event ∧
    metadata.tables.coded .event (index + 1) 2 .typeDefOrRef = .ok handler ∧
    handler.isNull = false ∧ scope.Resolves (.classType handler)

/-- Generic parameters keep their names in the types of events. -/
def EventsKeepParameterNames (m : CodeModule) (metadata : ImageMetadata) (scope : TypeScope) :
    Prop :=
  ∀ event handler, m.HasEvent metadata scope event handler →
    metadata.Shows (m.DeclaringParameter metadata event.declaringType) (ImageMetadata.Unnamed "M")
      (.classType handler) event.type

section Loaded

variable {m : CodeModule} {metadata : ImageMetadata} {scope : TypeScope}
  {generics : List ImageMetadata.GenericParameterRow}
  (hgenerics : (metadata.rows .genericParam).mapM metadata.genericParameter = .ok generics)
  (hnumbers : metadata.NumbersParameters)

include hgenerics hnumbers

theorem genericNamesOf_iff (owner : Token) (number : Nat) (name : String) :
    (ImageMetadata.genericNamesOf generics owner)[number]? = some name ↔
      metadata.HasParameter owner number name := by
  obtain ⟨count, hcount⟩ := hnumbers generics hgenerics owner
  rw [ImageMetadata.genericNamesOf_getElem? hcount, ImageMetadata.hasParameter_iff hgenerics]

variable (hread : metadata.ModuleRead scope generics m)

include hread

theorem methods_keep {index : Nat} {method : MethodDefinition}
    (hmethod : m.methods[index]? = some method) (number : Nat) (name : String) :
    method.genericParameters[number]? = some name ↔
      metadata.HasParameter method.token number name := by
  obtain ⟨owners, -, -, hrows⟩ := hread.methods
  rw [(hrows index method hmethod).genericParameters, (hrows index method hmethod).token]
  exact genericNamesOf_iff hgenerics hnumbers _ number name

theorem methodParameter_keep {index : Nat} {method : MethodDefinition}
    (hmethod : m.methods[index]? = some method) {number : Nat} {name : String}
    (h : metadata.HasParameter method.token number name) (ofType : List String) :
    GenericNames.methodParameter ⟨ofType, method.genericParameters⟩ number = name := by
  rw [GenericNames.methodParameter,
    (methods_keep hgenerics hnumbers hread hmethod number name).mpr h, Option.getD_some]

variable (hindexed : m.Indexed)

include hindexed

theorem types_keep {index : Nat} {type : TypeDefinition} (htype : m.types[index]? = some type)
    (number : Nat) (name : String) :
    type.genericParameters[number]? = some name ↔ metadata.HasParameter type.token number name := by
  rw [(hread.types index type htype).1, hindexed.types index type htype]
  exact genericNamesOf_iff hgenerics hnumbers _ number name

theorem typeGenerics_keep {declaring : Token} {number : Nat} {name : String}
    (h : m.DeclaringParameter metadata declaring number name) :
    (ImageMetadata.typeGenerics m declaring)[number]? = some name := by
  obtain ⟨type, htype, hname⟩ := h
  obtain ⟨-, -, hat⟩ := type?_eq_some.mp htype
  rw [ImageMetadata.typeGenerics, htype]
  exact (types_keep hgenerics hnumbers hread hindexed hat number name).mpr hname

theorem typeParameter_keep {declaring : Token} {number : Nat} {name : String}
    (h : m.DeclaringParameter metadata declaring number name) (ofMethod : List String) :
    GenericNames.typeParameter ⟨ImageMetadata.typeGenerics m declaring, ofMethod⟩ number =
      name := by
  rw [GenericNames.typeParameter,
    typeGenerics_keep hgenerics hnumbers hread hindexed h, Option.getD_some]

theorem keepsParameterNames_of_read (hscope : metadata.Scopes scope) :
    m.KeepsParameterNames metadata scope := by
  have hown {index : Nat} {type : TypeDefinition} (htype : m.types[index]? = some type)
      (number : Nat) (name : String) (hname : metadata.HasParameter type.token number name) :
      GenericNames.typeParameter ⟨type.genericParameters, []⟩ number = name := by
    rw [GenericNames.typeParameter,
      (types_keep hgenerics hnumbers hread hindexed htype number name).mpr hname, Option.getD_some]
  have hdeclaring (declaring : Token) (ofMethod : List String) (number : Nat) (name : String)
      (hname : m.DeclaringParameter metadata declaring number name) :=
    typeParameter_keep hgenerics hnumbers hread hindexed hname ofMethod
  have hunnamed (ofType : List String) (number : Nat) (name : String)
      (hname : ImageMetadata.Unnamed "M" number name) :
      GenericNames.methodParameter ⟨ofType, []⟩ number = name := hname.symm
  constructor
  case types =>
    intro type hmem
    obtain ⟨index, htype⟩ := Array.mem_iff_getElem?.mp hmem
    exact types_keep hgenerics hnumbers hread hindexed htype
  case genericMethods =>
    intro method hmem
    obtain ⟨index, hmethod⟩ := Array.mem_iff_getElem?.mp hmem
    exact methods_keep hgenerics hnumbers hread hmethod
  case bases =>
    intro index type extended htype hcoded hnull hresolves
    obtain ⟨found, hfound, hbase⟩ := (hread.types index type htype).2.base
    cases hcoded.symm.trans hfound
    rw [if_neg (by rw [hnull]; decide)] at hbase
    obtain ⟨base, hshown, hbase⟩ := hbase
    exact ⟨base, hbase, ImageMetadata.shows_of_signature hscope (hresolves.token_eq hshown)
      (hown htype) (hunnamed _)⟩
  case interfaces =>
    intro index type implementations number token htype himplementations hat hresolves
    obtain ⟨found, hfound, hinterfaces⟩ := (hread.types index type htype).2.interfaces
    cases himplementations.symm.trans hfound
    obtain ⟨interface, hinterface, hshown⟩ := Outcome.exists_getElem?_of_mapM hinterfaces hat
    exact ⟨interface, hinterface, ImageMetadata.shows_of_signature hscope
      (hresolves.token_eq hshown) (hown htype) (hunnamed _)⟩
  case fields =>
    intro index field signature hfield hsignature hresolves
    obtain ⟨owners, -, -, hrows⟩ := hread.fields
    exact ImageMetadata.shows_of_signature hscope
      (hresolves.signature_eq hsignature (hrows index field hfield).type)
      (hdeclaring _ _) (hunnamed _)
  case methods =>
    intro index method signature hmethod hsignature
    obtain ⟨owners, -, -, hrows⟩ := hread.methods
    obtain ⟨unnamed, htypes, pointers, hnamed⟩ := (hrows index method hmethod).types
    have hofMethod (number : Nat) (name : String)
        (hname : metadata.HasParameter method.token number name) :=
      methodParameter_keep hgenerics hnumbers hread hmethod hname
        (ImageMetadata.typeGenerics m method.declaringType)
    obtain ⟨hresult, hparameters⟩ := ImageMetadata.methodTypes_eq htypes hsignature
    refine ⟨fun hresolves => ImageMetadata.shows_of_signature hscope
      (hresolves.signature_eq rfl hresult) (hdeclaring _ _) hofMethod, ?_⟩
    intro number parameter hat hresolves
    obtain ⟨found, hfound, hshown⟩ := hparameters number parameter hat
    -- Naming the parameters keeps their types.
    have hsame := congrArg (fun types => types[number]?)
      (ImageMetadata.nameParameters_types hnamed)
    simp only [List.getElem?_map, hfound, Option.map_some] at hsame
    obtain ⟨shown, hat, htype⟩ := Option.map_eq_some_iff.mp hsame
    rw [← htype] at hshown
    exact ⟨shown, hat, ImageMetadata.shows_of_signature hscope
      (hresolves.signature_eq rfl hshown) (hdeclaring _ _) hofMethod⟩
  case properties =>
    intro index property signature hproperty hsignature
    obtain ⟨owners, -, hrows⟩ := hread.properties
    obtain ⟨htype, hparameters⟩ :=
      ImageMetadata.propertyTypes_eq (hrows index property hproperty).types hsignature
    refine ⟨fun hresolves => ImageMetadata.shows_of_signature hscope
      (hresolves.signature_eq rfl htype) (hdeclaring _ _) (hunnamed _), ?_⟩
    intro number parameter hat hresolves
    obtain ⟨shown, hfound, hshown⟩ := hparameters number parameter hat
    exact ⟨shown, hfound, ImageMetadata.shows_of_signature hscope
      (hresolves.signature_eq rfl hshown) (hdeclaring _ _) (hunnamed _)⟩

end Loaded

/-- Types of events are resolved without names: parameters show as letters and numbers. -/
theorem shows_of_hasEvent {m : CodeModule} {metadata : ImageMetadata} {scope : TypeScope}
    {generics : List ImageMetadata.GenericParameterRow}
    (hread : metadata.ModuleRead scope generics m) (hscope : metadata.Scopes scope)
    {event : EventDefinition} {handler : Token} (h : m.HasEvent metadata scope event handler) :
    metadata.Shows (ImageMetadata.Unnamed "T") (ImageMetadata.Unnamed "M") (.classType handler)
      event.type := by
  obtain ⟨index, hevent, hcoded, hnull, hresolves⟩ := h
  obtain ⟨owners, -, hrows⟩ := hread.events
  obtain ⟨found, hfound, htype⟩ := (hrows index event hevent).type
  cases hcoded.symm.trans hfound
  rw [if_neg (by rw [hnull]; decide)] at htype
  exact ImageMetadata.shows_of_signature hscope (hresolves.token_eq htype)
    (fun _ _ hname => hname.symm) (fun _ _ hname => hname.symm)

/-- Where generic parameters are numbered from 0 on, they keep their names everywhere but in the
types of events; there they do just in case their names are the letter T and their numbers. -/
theorem parameter_names_kept_iff {image : Image} {name : String} {m : CodeModule}
    {metadata : ImageMetadata} (hmetadata : ImageMetadata.ofImage image = .ok metadata)
    (hload : ofImage image name = .ok m) (hnumbers : metadata.NumbersParameters) :
    ∃ scope, metadata.ScopeOf m scope ∧ m.KeepsParameterNames metadata scope ∧
      (m.EventsKeepParameterNames metadata scope ↔
        ∀ event handler, m.HasEvent metadata scope event handler → ∀ path number own,
          metadata.PartAt (.classType handler) path (.typeParameter number) →
          m.DeclaringParameter metadata event.declaringType number own →
            own = "T" ++ toString number) := by
  have hindexed := indexed_ofImage hload
  obtain ⟨loaded, hloaded, hmodule⟩ := Outcome.bind_eq_ok.mp hload
  cases hmetadata.symm.trans hloaded
  obtain ⟨scope, generics, hgenerics, hread⟩ := ImageMetadata.exists_moduleRead hmodule
  have hscope : metadata.Scopes scope :=
    ImageMetadata.scopes_of_constructed hread.tokens.constructed _ _
  refine ⟨scope, hread.tokens,
    keepsParameterNames_of_read hgenerics hnumbers hread hindexed hscope, ?_⟩
  constructor
  · intro hkeep event handler hevent path number own hpart hown
    have hshown := (hkeep event handler hevent path number own).1 hpart hown
    have hnumbered := (shows_of_hasEvent hread hscope hevent path number _).1 hpart rfl
    rw [hnumbered] at hshown
    cases hshown
    rfl
  · intro hall event handler hevent path number own
    have hnumbered := shows_of_hasEvent hread hscope hevent path number own
    exact ⟨fun hpart hown =>
      hnumbered.1 hpart (hall event handler hevent path number own hpart hown), hnumbered.2⟩

end CodeModule

/-!
## A field and an event of one type
-/

namespace ImageMetadata

/-- Whether generic parameters are numbered can be tried owner by owner. -/
theorem numbersParameters_of_all {metadata : ImageMetadata}
    (h : ((metadata.rows .genericParam).mapM metadata.genericParameter).toOption.all
      fun generics => generics.all fun row =>
        let own := generics.filter (·.owner == row.owner)
        decide ((own.map GenericParameterRow.number).Perm (List.range own.length))) :
    metadata.NumbersParameters := by
  intro generics hgenerics owner
  rw [hgenerics] at h
  cases hown : generics.filter (·.owner == owner) with
  | nil => exact ⟨0, List.Perm.nil⟩
  | cons row rest =>
      obtain ⟨hmem, howner⟩ :=
        List.mem_filter.mp (hown ▸ List.mem_cons_self : row ∈ generics.filter (·.owner == owner))
      have hperm := of_decide_eq_true (List.all_eq_true.mp h row hmem)
      rw [eq_of_beq howner] at hperm
      exact ⟨_, hown ▸ hperm⟩

end ImageMetadata

section Sample

/-- A type `Box` with a parameter `K`, and a field, a generic method, a property and an event of
one constructed type, `Box<K>`. -/
def boxDraft : ImageDraft where
  strings := [0, 0x42, 0x6F, 0x78, 0, 0x4B, 0, 0x59, 0]
  blobs := [0, 6, 0x15, 0x12, 0x04, 1, 0x13, 0, 3, 0x06, 0x12, 0x06,
    4, 0x28, 0, 0x12, 0x06, 7, 0x30, 1, 1, 0x1E, 0, 0x12, 0x06]
  rows
    | .typeDef => [[0, 1, 0, 0, 1, 1]]
    | .field => [[0, 0, 8]]
    | .methodDef => [[0, 0, 0, 0, 17, 1]]
    | .propertyMap => [[1, 1]]
    | .property => [[0, 0, 12]]
    | .eventMap => [[1, 1]]
    | .event => [[0, 0, 6]]
    | .typeSpec => [[1]]
    | .genericParam => [[0, 0, 3, 7], [0, 0, 2, 5]]
    | _ => []
  mvid := Vector.replicate 16 0
  entryPoint := 0

theorem boxDraft_fits : boxDraft.Fits := .of_all (by decide +kernel) (by decide +kernel)

/-- The module of the draft: one type declares all members, and the event shows its number in the
place of the name. -/
structure BoxLoaded (metadata : ImageMetadata) (m : CodeModule) : Prop where
  image : ImageMetadata.ofImage (boxDraft.image boxDraft.headers) = .ok metadata
  loads : CodeModule.ofImage (boxDraft.image boxDraft.headers) "" = .ok m
  holds : boxDraft.Holds metadata
  numbers : metadata.NumbersParameters
  parameter : metadata.HasParameter (TableId.typeDef.token 1) 0 "K"
  types : m.types.size = 1
  owners : m.events.map (·.declaringType) = #[TableId.typeDef.token 1]
  texts : m.fields.map (·.type.text) = #["Box<K>"] ∧ m.methods.map (·.returnType.text) = #["Y"] ∧
    m.properties.map (·.type.text) = #["Box<K>"] ∧ m.events.map (·.type.text) = #["Box<T0>"]
  argument : m.events.map (fun event => (event.type.part? [0]).map TypeExpr.text) = #[some "T0"]

theorem exists_boxLoaded : ∃ metadata m, BoxLoaded metadata m := by
  have hopens : ((TableStream.decode boxDraft.tableStream.toArray).map
      (boxDraft.opened boxDraft.headers)).toOption.any fun metadata =>
        (((metadata.rows .genericParam).mapM metadata.genericParameter).toOption.all
          fun generics => generics.all fun row =>
            let own := generics.filter (·.owner == row.owner)
            decide ((own.map ImageMetadata.GenericParameterRow.number).Perm
              (List.range own.length))) &&
        ((metadata.genericParameter 2).toOption.any fun row => decide
          (row.owner = TableId.typeDef.token 1 ∧ row.number = 0 ∧ row.name = "K")) &&
        (metadata.toModule "").toOption.any fun m => decide
          (m.types.size = 1 ∧ m.events.map (·.declaringType) = #[TableId.typeDef.token 1] ∧
            (m.fields.map (·.type.text) = #["Box<K>"] ∧ m.methods.map (·.returnType.text) = #["Y"] ∧
              m.properties.map (·.type.text) = #["Box<K>"] ∧
              m.events.map (·.type.text) = #["Box<T0>"]) ∧
            m.events.map (fun event => (event.type.part? [0]).map TypeExpr.text) =
              #[some "T0"]) := by
    decide +kernel
  obtain ⟨metadata, hmetadata, hchecks⟩ := Outcome.exists_of_any hopens
  obtain ⟨hparameters, hloads⟩ := Bool.and_eq_true_iff.mp hchecks
  obtain ⟨hnumbers, hparameter⟩ := Bool.and_eq_true_iff.mp hparameters
  obtain ⟨⟨owner, number, own⟩, hrow, hnamed⟩ := Outcome.exists_of_any hparameter
  obtain ⟨rfl, rfl, rfl⟩ := of_decide_eq_true hnamed
  obtain ⟨m, hm, hmodule⟩ := Outcome.exists_of_any hloads
  obtain ⟨htypes, howners, htexts, hargument⟩ := of_decide_eq_true hmodule
  have himage := (ImageDraft.ofImage_eq boxDraft_fits
    (ImageDraft.length_headers boxDraft)).trans hmetadata
  obtain ⟨other, hother, hholds⟩ :=
    ImageDraft.ofImage_image boxDraft_fits (ImageDraft.length_headers boxDraft)
  cases himage.symm.trans hother
  refine ⟨metadata, m, himage, ?_, hholds, ImageMetadata.numbersParameters_of_all hnumbers,
    ⟨2, hrow⟩, htypes, howners, htexts, hargument⟩
  rw [CodeModule.ofImage, himage]
  exact hm

namespace BoxLoaded

variable {metadata : ImageMetadata} {m : CodeModule} (h : BoxLoaded metadata m)

include h

theorem handler_eq :
    metadata.tables.coded .event 1 2 .typeDefOrRef = .ok (TableId.typeSpec.token 1) := by
  rw [TableStream.coded, h.holds.value .event 0 2 6 [0, 0, 6] rfl rfl]
  rfl

theorem signature_eq : (metadata.blob .typeSpec 1 0).bind Signature.typeSpec.parse =
    .ok (.generic (.classType (TableId.typeDef.token 1)) [.typeParameter 0]) := by
  rw [ImageMetadata.blob, h.holds.value .typeSpec 0 0 1 [1] rfl rfl, h.holds.blobs]
  rfl

theorem partAt : metadata.PartAt (.classType (TableId.typeSpec.token 1)) [0] (.typeParameter 0) :=
  .constructed rfl rfl h.signature_eq
    (.argument (.name rfl (by decide)) rfl (.whole _))

theorem resolves {scope : TypeScope} (hscope : metadata.ScopeOf m scope) :
    scope.Resolves (.classType (TableId.typeSpec.token 1)) := by
  have hscopes := ImageMetadata.scopes_of_constructed hscope.constructed scope.definitions
    scope.references
  obtain ⟨blob, hblob, hparse⟩ := Outcome.bind_eq_ok.mp h.signature_eq
  have hrow : TypeScope.rowOf? scope.constructed (TableId.typeSpec.token 1) = some blob := by
    rw [hscopes]
    exact congrArg Except.toOption hblob
  obtain ⟨name, hname⟩ : ∃ name, scope.name? (TableId.typeDef.token 1) = some name := by
    have hsize : scope.definitions.size = 1 := by
      rw [hscope.definitions, Array.size_map, h.types]
    exact ⟨scope.definitions[0], Array.getElem?_eq_getElem (by rw [hsize]; decide)⟩
  change ∃ generics type,
    scope.resolveToken generics (TypeScope.maxDepth + 1) (TableId.typeSpec.token 1) = .ok type
  refine ⟨{}, ?_⟩
  rw [TypeScope.resolveToken, if_pos (TableId.table_token _ _), hrow]
  dsimp only
  rw [hparse, Outcome.ok_bind]
  refine TypeScope.exists_resolve {} _ fun token hmem => ⟨.named name, ?_⟩
  rw [List.mem_singleton.mp hmem]
  exact TypeScope.resolveToken_name (by decide) hname {} _

theorem exists_event {scope : TypeScope} (hscope : metadata.ScopeOf m scope) :
    ∃ event, m.HasEvent metadata scope event (TableId.typeSpec.token 1) ∧
      m.DeclaringParameter metadata event.declaringType 0 "K" ∧
      (event.type.part? [0]).map TypeExpr.text = some "T0" := by
  have hsize : m.events.size = 1 := by
    have hcount := congrArg Array.size h.owners
    rwa [Array.size_map] at hcount
  have hevent : m.events[0]? = some m.events[0] := Array.getElem?_eq_getElem (by omega)
  have howner := congrArg (fun owners => owners[0]?) h.owners
  have hargument := congrArg (fun parts => parts[0]?) h.argument
  simp only [Array.getElem?_map, hevent, Option.map_some] at howner hargument
  obtain ⟨type, htype⟩ : ∃ type, m.types[0]? = some type :=
    ⟨_, Array.getElem?_eq_getElem (by rw [h.types]; decide)⟩
  refine ⟨m.events[0], ⟨0, hevent, h.handler_eq, rfl, h.resolves hscope⟩, ?_,
    Option.some.inj hargument⟩
  rw [Option.some.inj howner]
  refine ⟨type, CodeModule.type?_eq_some.mpr ⟨rfl, by decide, htype⟩, ?_⟩
  rw [(CodeModule.indexed_ofImage h.loads).types 0 _ htype]
  exact h.parameter

end BoxLoaded

theorem parameter_names_kept_iff_box :
    ∃ metadata m scope,
      ImageMetadata.ofImage (boxDraft.image boxDraft.headers) = .ok metadata ∧
      CodeModule.ofImage (boxDraft.image boxDraft.headers) "" = .ok m ∧
      metadata.NumbersParameters ∧ metadata.ScopeOf m scope ∧
      m.KeepsParameterNames metadata scope ∧ m.fields.map (·.type.text) = #["Box<K>"] ∧
      m.methods.map (·.returnType.text) = #["Y"] ∧
      m.properties.map (·.type.text) = #["Box<K>"] := by
  obtain ⟨metadata, m, h⟩ := exists_boxLoaded
  obtain ⟨scope, hscope, hkeeps, -⟩ :=
    CodeModule.parameter_names_kept_iff h.image h.loads h.numbers
  exact ⟨metadata, m, scope, h.image, h.loads, h.numbers, hscope, hkeeps, h.texts.1, h.texts.2.1,
    h.texts.2.2.1⟩

/-- The event shows by its number the parameter that the field and the property of the same type
show by its name. -/
theorem parameter_numbered_in_event :
    ∃ metadata m,
      ImageMetadata.ofImage (boxDraft.image boxDraft.headers) = .ok metadata ∧
      CodeModule.ofImage (boxDraft.image boxDraft.headers) "" = .ok m ∧
      metadata.NumbersParameters ∧ m.fields.map (·.type.text) = #["Box<K>"] ∧
      m.properties.map (·.type.text) = #["Box<K>"] ∧ m.events.map (·.type.text) = #["Box<T0>"] ∧
      ∀ scope, metadata.ScopeOf m scope → ¬ m.EventsKeepParameterNames metadata scope := by
  obtain ⟨metadata, m, h⟩ := exists_boxLoaded
  refine ⟨metadata, m, h.image, h.loads, h.numbers, h.texts.1, h.texts.2.2.1, h.texts.2.2.2, ?_⟩
  intro scope hscope hkeep
  obtain ⟨event, hevent, hdeclaring, htext⟩ := h.exists_event hscope
  rw [(hkeep event _ hevent [0] 0 "K").1 h.partAt hdeclaring] at htext
  exact absurd htext (by decide)

end Sample

end AssemblyBrowser
