import AssemblyBrowser.Module.Definition

/-!
# Flags of nodes

Modifiers say what the source code would say in front of a definition; badges
say what else is notable about a node.
-/

namespace AssemblyBrowser

/-- A set of modifiers. -/
structure Modifiers where
  bits : Nat
  deriving DecidableEq, Repr

namespace Modifiers

def none : Modifiers := ⟨0⟩
def publicBit : Modifiers := ⟨0x001⟩
def protectedBit : Modifiers := ⟨0x002⟩
def internalBit : Modifiers := ⟨0x004⟩
def privateBit : Modifiers := ⟨0x008⟩
def staticBit : Modifiers := ⟨0x010⟩
def abstractBit : Modifiers := ⟨0x020⟩
def virtualBit : Modifiers := ⟨0x040⟩
def overrideBit : Modifiers := ⟨0x080⟩
def sealedBit : Modifiers := ⟨0x100⟩
def readOnlyBit : Modifiers := ⟨0x200⟩
def constBit : Modifiers := ⟨0x400⟩

def union (first second : Modifiers) : Modifiers := ⟨first.bits ||| second.bits⟩

def when (condition : Bool) (modifiers : Modifiers) : Modifiers :=
  if condition then modifiers else none

/-- The known modifiers among the bits of a number. -/
def ofBits (bits : Nat) : Modifiers := ⟨bits &&& 0x7FF⟩

/-- The modifiers that stand for an accessibility. -/
def ofAccessibility : Accessibility → Modifiers
  | .publicAccess => publicBit
  | .family => protectedBit
  | .familyOrAssembly => protectedBit.union internalBit
  | .familyAndAssembly => privateBit.union protectedBit
  | .assembly => internalBit
  | .privateAccess => privateBit
  | .compilerControlled => privateBit

/-- The modifiers of a type. Only classes are called static, abstract or sealed. -/
def ofType (type : TypeDefinition) : Modifiers :=
  (ofAccessibility type.accessibility).union
    (if type.kind ≠ .classType then none
      else if type.isStatic then staticBit
      else if type.isAbstract then abstractBit
      else if type.isSealed then sealedBit
      else none)

def ofMethod (method : MethodDefinition) : Modifiers :=
  ((ofAccessibility method.accessibility).union (when method.isStatic staticBit)).union
    (if method.isAbstract then abstractBit
      else if method.isOverride then overrideBit
      else if method.isVirtual then virtualBit
      else none)

def ofField (field : FieldDefinition) : Modifiers :=
  (ofAccessibility field.accessibility).union
    (if field.isLiteral then constBit
      else (when field.isStatic staticBit).union (when field.isReadOnly readOnlyBit))

end Modifiers

/-- A set of badges. -/
structure Badges where
  bits : Nat
  deriving DecidableEq, Repr

namespace Badges

def none : Badges := ⟨0⟩
def autoLoaded : Badges := ⟨0x01⟩
def compilerGenerated : Badges := ⟨0x02⟩
def entryPoint : Badges := ⟨0x04⟩
def nestedModule : Badges := ⟨0x08⟩
def specialName : Badges := ⟨0x10⟩
def unresolved : Badges := ⟨0x20⟩

def union (first second : Badges) : Badges := ⟨first.bits ||| second.bits⟩

def when (condition : Bool) (badges : Badges) : Badges := if condition then badges else none

def ofBits (bits : Nat) : Badges := ⟨bits &&& 0x3F⟩

def ofName (name : String) : Badges := when (isGeneratedName name) compilerGenerated

end Badges
end AssemblyBrowser
