import AssemblyBrowser.Metadata.Table
import AssemblyBrowser.Module.TypeExpr

/-!
# Resolving signatures

Signatures refer to types by token. Tokens of definitions and references stand
for names; tokens of constructed types stand for further signatures, which may
refer to one another only to a limited depth.
-/

namespace AssemblyBrowser

/-- What the type tokens of a module stand for. -/
structure TypeScope where
  definitions : Array TypeName
  references : Array TypeName
  /-- The signatures of constructed types. -/
  constructed : Array Bytes

/-- The names of the generic parameters that a signature can refer to. -/
structure GenericNames where
  ofType : List String := []
  ofMethod : List String := []

namespace GenericNames

/-- The name of a parameter of the type; one without a name is numbered. -/
def typeParameter (names : GenericNames) (number : Nat) : String :=
  (names.ofType[number]?).getD ("T" ++ toString number)

/-- The name of a parameter of the method; one without a name is numbered. -/
def methodParameter (names : GenericNames) (number : Nat) : String :=
  (names.ofMethod[number]?).getD ("M" ++ toString number)

end GenericNames

namespace TypeScope

/-- How deep constructed types may refer to one another. -/
def maxDepth : Nat := 16

mutual
/-- Resolves a signature, given what its tokens stand for. -/
def resolve (named : Token → Except Error TypeExpr) (generics : GenericNames) :
    TypeSignature → Except Error TypeExpr
  | .primitive type => .ok (.primitive type)
  | .classType token => named token
  | .valueType token => named token
  | .generic base arguments => do
      let base ← resolve named generics base
      let arguments ← resolveAll named generics arguments
      match base with
      | .named name => return .generic name arguments
      | other => return other
  | .typeParameter number => .ok (.parameter (generics.typeParameter number))
  | .methodParameter number => .ok (.parameter (generics.methodParameter number))
  | .vector inner => return .vector (← resolve named generics inner)
  | .array inner rank => return .array (← resolve named generics inner) rank
  | .pointer inner => return .pointer (← resolve named generics inner)
  | .reference inner => return .reference (← resolve named generics inner)
  | .functionPointer _ _ _ _ => .ok .functionPointer

def resolveAll (named : Token → Except Error TypeExpr) (generics : GenericNames) :
    List TypeSignature → Except Error (List TypeExpr)
  | [] => .ok []
  | signature :: rest => do
      let type ← resolve named generics signature
      let types ← resolveAll named generics rest
      return type :: types
end

def rowOf? {α : Type} (rows : Array α) (token : Token) : Option α :=
  if token.row = 0 then none else rows[token.row - 1]?

/-- The name behind the token of a definition or a reference. -/
def name? (scope : TypeScope) (token : Token) : Option TypeName :=
  if token.table = TableId.typeDef.number then rowOf? scope.definitions token
  else if token.table = TableId.typeRef.number then rowOf? scope.references token
  else none

/-- What a token stands for; constructed types refer to one another at most `fuel` deep. -/
def resolveToken (scope : TypeScope) (generics : GenericNames) :
    (fuel : Nat) → Token → Except Error TypeExpr
  | 0, token =>
      if token.table = TableId.typeSpec.number then .error (.recursionLimit maxDepth)
      else
        match scope.name? token with
        | some name => .ok (.named name)
        | none => .error (.malformed (.unresolvedType token))
  | fuel + 1, token =>
      if token.table = TableId.typeSpec.number then
        match rowOf? scope.constructed token with
        | none => .error (.malformed (.typeSpecToken token))
        | some blob => do
            let signature ← Signature.typeSpec.parse blob
            resolve (scope.resolveToken generics fuel) generics signature
      else
        match scope.name? token with
        | some name => .ok (.named name)
        | none => .error (.malformed (.unresolvedType token))

def token (scope : TypeScope) (generics : GenericNames) (token : Token) : Except Error TypeExpr :=
  scope.resolveToken generics (maxDepth + 1) token

def signature (scope : TypeScope) (generics : GenericNames) (signature : TypeSignature) :
    Except Error TypeExpr :=
  resolve (scope.token generics) generics signature

/-- What a token stands for; the root of the hierarchy takes the place of what does not
resolve. -/
def tokenOrObject (scope : TypeScope) (generics : GenericNames) (token : Token) :
    Except Error TypeExpr := do
  let type? ← Error.attempt (scope.token generics token)
  return type?.getD .object

/-- What a signature stands for; the root of the hierarchy takes the place of what does not
resolve. -/
def signatureOrObject (scope : TypeScope) (generics : GenericNames)
    (signature : Except Error TypeSignature) : Except Error TypeExpr := do
  let type? ← Error.attempt (signature.bind (scope.signature generics))
  return type?.getD .object

end TypeScope
end AssemblyBrowser
