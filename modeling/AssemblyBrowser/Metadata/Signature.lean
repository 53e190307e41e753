import AssemblyBrowser.Bytes.CompressedNumber

/-!
# Signatures

The type of a field, a property or a method is stored as a signature: a tree in
which named types are still tokens. Custom modifiers and pinning marks do not
change what is shown and are skipped. Types may nest at most 64 deep.
-/

namespace AssemblyBrowser

/-- A type that has no name of its own in a signature. -/
inductive Primitive where
  | void
  | boolean
  | char
  | int8
  | uint8
  | int16
  | uint16
  | int32
  | uint32
  | int64
  | uint64
  | single
  | double
  | string
  | object
  | intPtr
  | uintPtr
  | typedReference
  deriving DecidableEq, Repr

/-- How a method is called. -/
structure CallingConvention where
  hasThis : Bool := false
  explicitThis : Bool := false
  vararg : Bool := false
  deriving DecidableEq

/-- A type as it stands in a signature. -/
inductive TypeSignature where
  | primitive (type : Primitive)
  | classType (token : Token)
  | valueType (token : Token)
  | generic (base : TypeSignature) (arguments : List TypeSignature)
  | typeParameter (number : Nat)
  | methodParameter (number : Nat)
  | vector (element : TypeSignature)
  | array (element : TypeSignature) (rank : Nat)
  | pointer (target : TypeSignature)
  | reference (target : TypeSignature)
  | functionPointer (convention : CallingConvention) (genericCount : Nat)
      (result : TypeSignature) (parameters : List TypeSignature)

/-- The signature of a method. -/
structure MethodSignature where
  convention : CallingConvention
  genericCount : Nat
  result : TypeSignature
  parameters : List TypeSignature

/-- The signature of a property; an indexer has parameters. -/
structure PropertySignature where
  hasThis : Bool
  type : TypeSignature
  parameters : List TypeSignature

namespace Signature

def maxDepth : Nat := 64

def primitive? : (element : Nat) → Option Primitive
  | 0x01 => some .void
  | 0x02 => some .boolean
  | 0x03 => some .char
  | 0x04 => some .int8
  | 0x05 => some .uint8
  | 0x06 => some .int16
  | 0x07 => some .uint16
  | 0x08 => some .int32
  | 0x09 => some .uint32
  | 0x0A => some .int64
  | 0x0B => some .uint64
  | 0x0C => some .single
  | 0x0D => some .double
  | 0x0E => some .string
  | 0x16 => some .typedReference
  | 0x18 => some .intPtr
  | 0x19 => some .uintPtr
  | 0x1C => some .object
  | _ => none

/-- Skips custom modifiers and pinning marks; `fuel` bounds their number. -/
def skipModifiersBounded : (fuel : Nat) → Decoder Unit
  | 0 => return
  | fuel + 1 => do
      if (← Decoder.remaining) = 0 then return
      let next := (← Decoder.peek).toNat
      if next = 0x1F ∨ next = 0x20 then
        Decoder.advance 1
        let _modifier ← CompressedNumber.decodeToken
        skipModifiersBounded fuel
      else if next = 0x45 then
        Decoder.advance 1
        skipModifiersBounded fuel
      else return

/-- Skips the custom modifiers and pinning marks in front of a type. -/
def skipModifiers : Decoder Unit := do
  skipModifiersBounded (← Decoder.remaining)

/-- Reads as many numbers as a count in front of them says. -/
def countedNumbers : Decoder (List Nat) := do
  Decoder.repeated CompressedNumber.decode (← CompressedNumber.decode)

/-- Reads a parameter; a mark in front of it separates it from the fixed ones. -/
def parameter (type : Decoder TypeSignature) : Decoder TypeSignature := do
  skipModifiers
  if (← Decoder.peek) = 0x41 then Decoder.advance 1
  type

/-- Reads a method signature whose types are read by the given decoder. -/
def methodOf (type : Decoder TypeSignature) : Decoder MethodSignature := do
  let head ← Decoder.byte
  let genericCount ← if head.testBit 4 then CompressedNumber.decode else pure 0
  let count ← CompressedNumber.decode
  let result ← type
  let parameters ← Decoder.repeated (parameter type) count
  return {
    convention :=
      { hasThis := head.testBit 5, explicitThis := head.testBit 6, vararg := head % 16 == 5 }
    genericCount, result, parameters }

def type : (depth : Nat) → Decoder TypeSignature
  | 0 => throw (.recursionLimit maxDepth)
  | depth + 1 => do
      skipModifiers
      let element ← Decoder.byte
      match element with
      | 0x0F => return .pointer (← type depth)
      | 0x10 => return .reference (← type depth)
      | 0x11 => return .valueType (← CompressedNumber.decodeToken)
      | 0x12 => return .classType (← CompressedNumber.decodeToken)
      | 0x13 => return .typeParameter (← CompressedNumber.decode)
      | 0x14 => do
          let inner ← type depth
          let rank ← CompressedNumber.decode
          let _sizes ← countedNumbers
          let _lowerBounds ← countedNumbers
          return .array inner rank
      | 0x15 => do
          let base ← type depth
          let count ← CompressedNumber.decode
          return .generic base (← Decoder.repeated (type depth) count)
      | 0x1B => do
          let method ← methodOf (type depth)
          return .functionPointer method.convention method.genericCount method.result
            method.parameters
      | 0x1D => return .vector (← type depth)
      | 0x1E => return .methodParameter (← CompressedNumber.decode)
      | element =>
          match primitive? element with
          | some primitive => return .primitive primitive
          | none => Decoder.malformed (.elementType element)

def method : Decoder MethodSignature := methodOf (type maxDepth)

def field : Decoder TypeSignature := do
  let head ← Decoder.byte
  if head % 16 ≠ 6 then Decoder.malformed (.fieldSignatureHeader head)
  type maxDepth

def property : Decoder PropertySignature := do
  let head ← Decoder.byte
  if head % 16 ≠ 8 then Decoder.malformed (.propertySignatureHeader head)
  let count ← CompressedNumber.decode
  let result ← type maxDepth
  let parameters ← Decoder.repeated (type maxDepth) count
  return { hasThis := head.testBit 5, type := result, parameters }

def typeSpec : Decoder TypeSignature := type maxDepth

end Signature
end AssemblyBrowser
