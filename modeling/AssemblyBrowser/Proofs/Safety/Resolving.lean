import AssemblyBrowser.Module.Resolution
import AssemblyBrowser.Proofs.Safety.Decoding

/-!
# Resolving signatures answers

Resolving a signature answers if what its tokens stand for does, and a token
stands for a signature that is parsed and resolved in turn.
-/

namespace AssemblyBrowser
namespace TypeScope

section

variable {named : Token → Except Error TypeExpr} (generics : GenericNames)

mutual

theorem answers_resolve (hnamed : ∀ token, Answers (fun _ => True) (named token))
    (signature : TypeSignature) :
    Answers (fun _ => True) (resolve named generics signature) := by
  cases signature with
  | primitive type => exact trivial
  | classType token => exact hnamed token
  | valueType token => exact hnamed token
  | generic base arguments =>
      rw [resolve]
      refine (answers_resolve hnamed base).bind ?_
      intro baseType _
      refine (answers_resolveAll hnamed arguments).bind ?_
      intro argumentTypes _
      split <;> exact Answers.pure trivial
  | typeParameter number => exact trivial
  | methodParameter number => exact trivial
  | vector inner =>
      rw [resolve]
      exact (answers_resolve hnamed inner).bind fun _ _ => Answers.pure trivial
  | array inner rank =>
      rw [resolve]
      exact (answers_resolve hnamed inner).bind fun _ _ => Answers.pure trivial
  | pointer inner =>
      rw [resolve]
      exact (answers_resolve hnamed inner).bind fun _ _ => Answers.pure trivial
  | reference inner =>
      rw [resolve]
      exact (answers_resolve hnamed inner).bind fun _ _ => Answers.pure trivial
  | functionPointer => exact trivial

theorem answers_resolveAll (hnamed : ∀ token, Answers (fun _ => True) (named token))
    (signatures : List TypeSignature) :
    Answers (fun _ => True) (resolveAll named generics signatures) := by
  cases signatures with
  | nil => exact trivial
  | cons signature rest =>
      rw [resolveAll]
      refine (answers_resolve hnamed signature).bind ?_
      intro type _
      exact (answers_resolveAll hnamed rest).bind fun _ _ => Answers.pure trivial

end

end

/-- The signatures of constructed types are as long as blobs can be. -/
def SignaturesFit (scope : TypeScope) : Prop :=
  ∀ blob ∈ scope.constructed, blob.size < UInt32.size

theorem rowOf?_mem {α : Type} {rows : Array α} {token : Token} {item : α}
    (h : rowOf? rows token = some item) : item ∈ rows := by
  unfold rowOf? at h
  split at h
  · cases h
  · exact Array.mem_of_getElem? h

variable {scope : TypeScope} (hfit : scope.SignaturesFit) (generics : GenericNames)

theorem answers_named (scope : TypeScope) (token : Token) :
    Answers (fun _ => True)
      (match scope.name? token with
        | some name => .ok (TypeExpr.named name)
        | none => .error (.malformed (.unresolvedType token))) := by
  split
  · exact trivial
  · exact rfl

include hfit

/-- The induction is on how deep signatures may still refer to one another. -/
theorem answers_resolveToken (fuel : Nat) (token : Token) :
    Answers (fun _ => True) (scope.resolveToken generics fuel token) := by
  induction fuel generalizing token with
  | zero =>
      rw [resolveToken]
      split
      · exact rfl
      · exact answers_named scope token
  | succ fuel ih =>
      rw [resolveToken]
      split
      · split
        case h_1 => exact rfl
        case h_2 blob hblob =>
          have hparse : Answers (fun _ => True) (Signature.typeSpec.parse blob) :=
            Decoder.answers_parse (Signature.safe_type _) (hfit blob (rowOf?_mem hblob))
          exact hparse.bind fun signature _ => answers_resolve generics ih signature
      · exact answers_named scope token

theorem answers_token (token : Token) :
    Answers (fun _ => True) (scope.token generics token) :=
  answers_resolveToken hfit generics (maxDepth + 1) token

theorem answers_signature (signature : TypeSignature) :
    Answers (fun _ => True) (scope.signature generics signature) :=
  answers_resolve generics (answers_token hfit generics) signature

theorem answers_tokenOrObject (token : Token) :
    Answers (fun _ => True) (scope.tokenOrObject generics token) :=
  (answers_token hfit generics token).attempt.bind fun _ _ => Answers.pure trivial

theorem answers_signatureOrObject {signature : Except Error TypeSignature}
    (h : Answers (fun _ => True) signature) :
    Answers (fun _ => True) (scope.signatureOrObject generics signature) := by
  have hresolved : Answers (fun _ => True) (signature.bind (scope.signature generics)) :=
    h.bind fun type _ => answers_signature hfit generics type
  exact hresolved.attempt.bind fun _ _ => Answers.pure trivial

theorem answers_typeOrObject (signature : TypeSignature) :
    Answers (fun _ => True) (scope.signatureOrObject generics (.ok signature)) := by
  have hok : Answers (fun _ => True) (.ok signature : Except Error TypeSignature) := trivial
  exact answers_signatureOrObject hfit generics hok

/-!
With a placeholder for what does not resolve, there always is a type.
-/

theorem exists_tokenOrObject (token : Token) :
    ∃ type, scope.tokenOrObject generics token = .ok type := by
  obtain ⟨type?, htype⟩ := (answers_token hfit generics token).exists_attempt
  exact ⟨type?.getD .object, by rw [tokenOrObject, htype]; rfl⟩

theorem exists_signatureOrObject {signature : Except Error TypeSignature}
    (h : Answers (fun _ => True) signature) :
    ∃ type, scope.signatureOrObject generics signature = .ok type := by
  have hresolved : Answers (fun _ => True) (signature.bind (scope.signature generics)) :=
    h.bind fun type _ => answers_signature hfit generics type
  obtain ⟨type?, htype⟩ := hresolved.exists_attempt
  exact ⟨type?.getD .object, by rw [signatureOrObject, htype]; rfl⟩

theorem exists_typeOrObject (signature : TypeSignature) :
    ∃ type, scope.signatureOrObject generics (.ok signature) = .ok type := by
  have hok : Answers (fun _ => True) (.ok signature : Except Error TypeSignature) := trivial
  exact exists_signatureOrObject hfit generics hok

end TypeScope
end AssemblyBrowser
