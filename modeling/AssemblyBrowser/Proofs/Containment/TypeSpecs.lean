import AssemblyBrowser.Proofs.Containment.Redirections
import AssemblyBrowser.Proofs.Containment.TwoRuns
import AssemblyBrowser.Proofs.TypeNesting

/-!
# References to constructed types

Constructed types are shared: signatures of all kinds refer to them, and so do their
own signatures. What does not refer to one of them, directly or through others,
resolves to the same whatever stands in its row. What refers to one whose row has no
signature does not resolve, and a placeholder takes its place.
-/

namespace AssemblyBrowser

/-!
## Resolving depends on tokens
-/

namespace TypeScope

section

variable {named other : Token → Except Error TypeExpr} (generics : GenericNames)

mutual

/-- A signature resolves to what its tokens make it. -/
theorem resolve_congr (signature : TypeSignature)
    (h : ∀ token ∈ signature.tokens, other token = named token) :
    resolve other generics signature = resolve named generics signature := by
  cases signature with
  | primitive type => rfl
  | classType token => exact h token (List.mem_singleton_self token)
  | valueType token => exact h token (List.mem_singleton_self token)
  | generic base arguments =>
      rw [resolve, resolve, resolve_congr base fun token hmem =>
          h token (List.mem_append_left _ hmem),
        resolveAll_congr arguments fun token hmem => h token (List.mem_append_right _ hmem)]
  | typeParameter number => rfl
  | methodParameter number => rfl
  | vector element => rw [resolve, resolve, resolve_congr element h]
  | array element rank => rw [resolve, resolve, resolve_congr element h]
  | pointer target => rw [resolve, resolve, resolve_congr target h]
  | reference target => rw [resolve, resolve, resolve_congr target h]
  | functionPointer convention genericCount result parameters => rfl

theorem resolveAll_congr (signatures : List TypeSignature)
    (h : ∀ token ∈ TypeSignature.allTokens signatures, other token = named token) :
    resolveAll other generics signatures = resolveAll named generics signatures := by
  cases signatures with
  | nil => rfl
  | cons signature rest =>
      rw [resolveAll, resolveAll, resolve_congr signature fun token hmem =>
          h token (List.mem_append_left _ hmem),
        resolveAll_congr rest fun token hmem => h token (List.mem_append_right _ hmem)]

end

mutual

/-- A signature that resolves has no token that does not. -/
theorem exists_named_of_resolve (signature : TypeSignature) {type : TypeExpr}
    (h : resolve named generics signature = .ok type) :
    ∀ token ∈ signature.tokens, ∃ inner, named token = .ok inner := by
  cases signature with
  | primitive _ => exact fun _ hmem => absurd hmem List.not_mem_nil
  | classType own =>
      intro token hmem
      rw [List.mem_singleton.mp hmem]
      exact ⟨type, h⟩
  | valueType own =>
      intro token hmem
      rw [List.mem_singleton.mp hmem]
      exact ⟨type, h⟩
  | generic base arguments =>
      rw [resolve] at h
      obtain ⟨_, hbase, h⟩ := Outcome.bind_eq_ok.mp h
      obtain ⟨_, harguments, -⟩ := Outcome.bind_eq_ok.mp h
      intro token hmem
      rcases List.mem_append.mp hmem with hmem | hmem
      · exact exists_named_of_resolve base hbase token hmem
      · exact exists_named_of_resolveAll arguments harguments token hmem
  | typeParameter _ => exact fun _ hmem => absurd hmem List.not_mem_nil
  | methodParameter _ => exact fun _ hmem => absurd hmem List.not_mem_nil
  | vector element =>
      obtain ⟨_, helement, -⟩ := Outcome.bind_eq_ok.mp h
      exact exists_named_of_resolve element helement
  | array element rank =>
      obtain ⟨_, helement, -⟩ := Outcome.bind_eq_ok.mp h
      exact exists_named_of_resolve element helement
  | pointer target =>
      obtain ⟨_, htarget, -⟩ := Outcome.bind_eq_ok.mp h
      exact exists_named_of_resolve target htarget
  | reference target =>
      obtain ⟨_, htarget, -⟩ := Outcome.bind_eq_ok.mp h
      exact exists_named_of_resolve target htarget
  | functionPointer _ _ _ _ => exact fun _ hmem => absurd hmem List.not_mem_nil

theorem exists_named_of_resolveAll (signatures : List TypeSignature) {types : List TypeExpr}
    (h : resolveAll named generics signatures = .ok types) :
    ∀ token ∈ TypeSignature.allTokens signatures, ∃ inner, named token = .ok inner := by
  cases signatures with
  | nil => exact fun _ hmem => absurd hmem List.not_mem_nil
  | cons signature rest =>
      rw [resolveAll] at h
      obtain ⟨_, hsignature, h⟩ := Outcome.bind_eq_ok.mp h
      obtain ⟨_, hrest, -⟩ := Outcome.bind_eq_ok.mp h
      intro token hmem
      rcases List.mem_append.mp hmem with hmem | hmem
      · exact exists_named_of_resolve signature hsignature token hmem
      · exact exists_named_of_resolveAll rest hrest token hmem

end

end

/-- Tokens are resolved with the same fuel everywhere; which one it is does not matter. -/
theorem exists_fuel : ∃ fuel, ∀ (scope : TypeScope) (generics : GenericNames) (token : Token),
    scope.token generics token = scope.resolveToken generics fuel token :=
  ⟨maxDepth + 1, fun _ _ _ => rfl⟩

theorem ok_bind_signature (scope : TypeScope) (generics : GenericNames) (type : TypeSignature) :
    (Except.ok type).bind (scope.signature generics) =
      resolve (scope.token generics) generics type := by
  rw [← signature]
  rfl

/-- What the token of a constructed type resolves to is what its signature resolves to. -/
theorem exists_of_resolveToken {scope : TypeScope} {generics : GenericNames} {fuel : Nat}
    {token : Token} {type : TypeExpr} (htable : token.table = TableId.typeSpec.number)
    (h : scope.resolveToken generics fuel token = .ok type) :
    ∃ less blob signature, fuel = less + 1 ∧ rowOf? scope.constructed token = some blob ∧
      Signature.typeSpec.parse blob = .ok signature ∧
        resolve (scope.resolveToken generics less) generics signature = .ok type := by
  cases fuel with
  | zero =>
      rw [resolveToken, if_pos htable] at h
      cases h
  | succ less =>
      rw [resolveToken, if_pos htable] at h
      cases hblob : rowOf? scope.constructed token with
      | none =>
          rw [hblob] at h
          cases h
      | some blob =>
          rw [hblob] at h
          obtain ⟨signature, hsignature, hresolve⟩ := Outcome.bind_eq_ok.mp h
          exact ⟨less, blob, signature, rfl, rfl, hsignature, hresolve⟩

end TypeScope

/-!
## References to a constructed type
-/

namespace ImageMetadata

/-- A token refers to the constructed type of a row: it is that of the row itself, or that of a
constructed type whose signature has a token that refers to it. -/
inductive RefersTo (metadata : ImageMetadata) (row : Nat) : Token → Prop where
  | itself {token : Token} (htable : token.table = TableId.typeSpec.number)
      (hrow : token.row = row) : RefersTo metadata row token
  | through {token inner : Token} {signature : TypeSignature}
      (htable : token.table = TableId.typeSpec.number)
      (hsignature : (metadata.blob .typeSpec token.row 0).bind Signature.typeSpec.parse =
        .ok signature)
      (hinner : inner ∈ signature.tokens) (hrefers : RefersTo metadata row inner) :
      RefersTo metadata row token

/-- A token of the signature refers to the constructed type of a row. -/
def Mentions (metadata : ImageMetadata) (row : Nat) (signature : TypeSignature) : Prop :=
  ∃ token ∈ signature.tokens, metadata.RefersTo row token

/-- What can be read for the constructed type of a row is no signature. -/
def Damaged (metadata : ImageMetadata) (row : Nat) : Prop :=
  ∀ signature, (metadata.blob .typeSpec row 0).bind Signature.typeSpec.parse ≠ .ok signature

/-- The scope has the signatures of the rows of constructed types. -/
def Scopes (metadata : ImageMetadata) (scope : TypeScope) : Prop :=
  ∀ token : Token, TypeScope.rowOf? scope.constructed token =
    (metadata.blob .typeSpec token.row 0).toOption

theorem scopes_of_constructed {metadata : ImageMetadata} {blobs : List Bytes}
    (h : metadata.constructed = .ok blobs) (definitions references : Array TypeName) :
    metadata.Scopes ⟨definitions, references, blobs.toArray⟩ := by
  obtain ⟨hlength, hrows⟩ := mapM_rows h
  intro token
  unfold TypeScope.rowOf?
  split
  case isTrue hzero =>
    rw [blob, value_of_no_row (.inl hzero)]
    rfl
  case isFalse hnonzero =>
    dsimp only
    by_cases hlast : token.row - 1 < blobs.length
    · have hblob := hrows (token.row - 1) hlast
      rw [Nat.sub_add_cancel (by omega)] at hblob
      rw [hblob, List.getElem?_toArray, List.getElem?_eq_getElem hlast]
      rfl
    · rw [List.getElem?_toArray, List.getElem?_eq_none (by omega), blob,
        value_of_no_row (.inr (by omega))]
      rfl

section Tokens

variable {metadata changed : ImageMetadata} {row : Nat}
  {definitions references : Array TypeName} {blobs others : Array Bytes}
  (hscope : metadata.Scopes ⟨definitions, references, blobs⟩)
  (hother : changed.Scopes ⟨definitions, references, others⟩)
  (hblob : ∀ place, place ≠ row →
    changed.blob .typeSpec place 0 = metadata.blob .typeSpec place 0)
  (generics : GenericNames)

include hother hblob

include hscope in
/-- What does not refer to the constructed type of the row resolves as before. -/
theorem resolveToken_eq {token : Token} (h : ¬ metadata.RefersTo row token) (fuel : Nat) :
    (TypeScope.mk definitions references others).resolveToken generics fuel token =
      (TypeScope.mk definitions references blobs).resolveToken generics fuel token := by
  induction fuel generalizing token with
  | zero => rfl
  | succ fuel ih =>
      by_cases htable : token.table = TableId.typeSpec.number
      · have hrow : token.row ≠ row := fun heq => h (.itself htable heq)
        rw [TypeScope.resolveToken, TypeScope.resolveToken, if_pos htable, if_pos htable,
          hother token, hscope token, hblob token.row hrow]
        cases hread : metadata.blob .typeSpec token.row 0 with
        | error error => rfl
        | ok blob =>
            dsimp only [Except.toOption]
            cases hsignature : Signature.typeSpec.parse blob with
            | error error => rfl
            | ok signature =>
                rw [Outcome.ok_bind, Outcome.ok_bind]
                refine TypeScope.resolve_congr generics signature fun inner hinner => ?_
                refine ih fun hrefers => h (.through htable ?_ hinner hrefers)
                rw [hread]
                exact hsignature
      · rw [TypeScope.resolveToken, TypeScope.resolveToken, if_neg htable, if_neg htable]
        rfl

/-- What refers to a constructed type without a signature does not resolve. -/
theorem resolveToken_damaged (hdamaged : changed.Damaged row) {token : Token}
    (h : metadata.RefersTo row token) (fuel : Nat) (type : TypeExpr) :
    (TypeScope.mk definitions references others).resolveToken generics fuel token ≠ .ok type := by
  have hself {token : Token} (hrow : token.row = row) {blob : Bytes} {signature : TypeSignature}
      (hread : TypeScope.rowOf? others token = some blob)
      (hsignature : Signature.typeSpec.parse blob = .ok signature) : False := by
    refine hdamaged signature ?_
    have hblob := Outcome.eq_ok_of_toOption ((hother token).symm.trans hread)
    rw [← hrow, hblob]
    exact hsignature
  induction h generalizing fuel type with
  | itself htable hrow =>
      intro hresolves
      obtain ⟨_, blob, signature, -, hread, hsignature, -⟩ :=
        TypeScope.exists_of_resolveToken htable hresolves
      exact hself hrow hread hsignature
  | @through token inner signature htable hparse hinner _ ih =>
      intro hresolves
      obtain ⟨less, blob, found, -, hread, hfound, hinside⟩ :=
        TypeScope.exists_of_resolveToken htable hresolves
      by_cases hrow : token.row = row
      · exact hself hrow hread hfound
      · have hsame := Outcome.eq_ok_of_toOption ((hother token).symm.trans hread)
        rw [hblob token.row hrow] at hsame
        rw [hsame] at hparse
        cases hfound.symm.trans hparse
        obtain ⟨type, htype⟩ :=
          TypeScope.exists_named_of_resolve generics signature hinside inner hinner
        exact ih less type htype

end Tokens

end ImageMetadata

/-!
## What becomes of types
-/

/-- A type stays unless it refers to the damage; there it becomes a placeholder, if nothing can be
made of it any more. -/
def Follows (refers damaged : Prop) (before after : TypeExpr) : Prop :=
  (¬ refers → after = before) ∧ (refers → damaged → after = .object)

namespace Follows

variable {refers other damaged : Prop} {before after : TypeExpr}

theorem same (h : ¬ refers) (type : TypeExpr) : Follows refers damaged type type :=
  ⟨fun _ => rfl, fun hrefers => absurd hrefers h⟩

theorem congr (h : Follows refers damaged before after) (hiff : refers ↔ other) :
    Follows other damaged before after :=
  ⟨fun hother => h.1 (mt hiff.mp hother), fun hother => h.2 (hiff.mpr hother)⟩

/-- Placeholders take the place of what does not resolve. -/
theorem simulates_attempt {x y : Except Error TypeExpr}
    (hy : ∃ type, (do return (← Error.attempt y).getD TypeExpr.object) = Except.ok type)
    (hsame : ¬ refers → y = x) (hdamaged : refers → damaged → ∀ type, y ≠ .ok type) :
    Simulates (Follows refers damaged) (do return (← Error.attempt x).getD TypeExpr.object)
      (do return (← Error.attempt y).getD TypeExpr.object) := by
  obtain ⟨type, htype⟩ := hy
  intro before hbefore
  refine ⟨type, htype, fun hne => ?_, fun hrefers hdamage => ?_⟩
  · rw [hsame hne] at htype
    exact Except.ok.inj (htype.symm.trans hbefore)
  · cases y with
    | ok value => exact absurd rfl (hdamaged hrefers hdamage value)
    | error error =>
        cases hcrash : error.isCrash with
        | true =>
            rw [Error.attempt, hcrash] at htype
            cases htype
        | false =>
            rw [Error.attempt, hcrash] at htype
            exact (Except.ok.inj htype).symm

end Follows

namespace ImageMetadata

section Types

variable {metadata changed : ImageMetadata} {row : Nat}
  {definitions references : Array TypeName} {blobs others : Array Bytes}
  (hscope : metadata.Scopes ⟨definitions, references, blobs⟩)
  (hother : changed.Scopes ⟨definitions, references, others⟩)
  (hblob : ∀ place, place ≠ row →
    changed.blob .typeSpec place 0 = metadata.blob .typeSpec place 0)
  (hfit : TypeScope.SignaturesFit ⟨definitions, references, others⟩)
  (generics : GenericNames)

include hscope hother hblob hfit

theorem simulates_tokenOrObject (token : Token) :
    Simulates (Follows (metadata.RefersTo row token) (changed.Damaged row))
      ((TypeScope.mk definitions references blobs).tokenOrObject generics token)
      ((TypeScope.mk definitions references others).tokenOrObject generics token) := by
  obtain ⟨fuel, hfuel⟩ := TypeScope.exists_fuel
  have hexists := TypeScope.exists_tokenOrObject hfit generics token
  unfold TypeScope.tokenOrObject at hexists ⊢
  refine Follows.simulates_attempt hexists (fun hne => ?_) fun hrefers hdamaged type => ?_
  · rw [hfuel, hfuel, resolveToken_eq hscope hother hblob generics hne]
  · rw [hfuel]
    exact resolveToken_damaged hother hblob generics hdamaged hrefers _ type

theorem simulates_signatureOrObject {signature : Except Error TypeSignature}
    (hanswers : Answers (fun _ => True) signature) :
    Simulates
      (Follows (∃ type, signature = .ok type ∧ metadata.Mentions row type) (changed.Damaged row))
      ((TypeScope.mk definitions references blobs).signatureOrObject generics signature)
      ((TypeScope.mk definitions references others).signatureOrObject generics signature) := by
  obtain ⟨fuel, hfuel⟩ := TypeScope.exists_fuel
  have hexists := TypeScope.exists_signatureOrObject hfit generics hanswers
  unfold TypeScope.signatureOrObject at hexists ⊢
  refine Follows.simulates_attempt hexists (fun hne => ?_) ?_
  · cases signature with
    | error error => simp only [Except.bind]
    | ok type =>
        rw [TypeScope.ok_bind_signature, TypeScope.ok_bind_signature]
        refine TypeScope.resolve_congr generics type fun token hmem => ?_
        rw [hfuel, hfuel, resolveToken_eq hscope hother hblob generics
          fun hrefers => hne ⟨type, rfl, token, hmem, hrefers⟩]
  · rintro ⟨type, rfl, token, hmem, hrefers⟩ hdamaged shown hshown
    rw [TypeScope.ok_bind_signature] at hshown
    obtain ⟨inner, hinner⟩ := TypeScope.exists_named_of_resolve generics type hshown token hmem
    rw [hfuel] at hinner
    exact resolveToken_damaged hother hblob generics hdamaged hrefers _ inner hinner

end Types

end ImageMetadata
end AssemblyBrowser
