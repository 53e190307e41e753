/-!
# Attributes

The flag words of types and members, as far as they decide what is shown.
-/

namespace AssemblyBrowser

/-- Who may use a type or a member. -/
inductive Accessibility where
  | compilerControlled
  | privateAccess
  | familyAndAssembly
  | assembly
  | family
  | familyOrAssembly
  | publicAccess
  deriving DecidableEq, Repr

namespace Accessibility

/-- The accessibility in the three low bits of a type's flags. -/
def ofTypeFlags (flags : Nat) : Accessibility :=
  match flags % 8 with
  | 1 => publicAccess
  | 2 => publicAccess
  | 3 => privateAccess
  | 4 => family
  | 6 => familyAndAssembly
  | 7 => familyOrAssembly
  | _ => assembly

/-- The accessibility in the three low bits of a member's flags. -/
def ofMemberFlags (flags : Nat) : Accessibility :=
  match flags % 8 with
  | 1 => privateAccess
  | 2 => familyAndAssembly
  | 3 => assembly
  | 4 => family
  | 5 => familyOrAssembly
  | 6 => publicAccess
  | _ => compilerControlled

def name : Accessibility → String
  | compilerControlled => "CompilerControlled"
  | privateAccess => "Private"
  | familyAndAssembly => "FamilyAndAssembly"
  | assembly => "Assembly"
  | family => "Family"
  | familyOrAssembly => "FamilyOrAssembly"
  | publicAccess => "Public"

def csharp : Accessibility → String
  | compilerControlled => "private"
  | privateAccess => "private"
  | familyAndAssembly => "private protected"
  | assembly => "internal"
  | family => "protected"
  | familyOrAssembly => "protected internal"
  | publicAccess => "public"

def il : Accessibility → String
  | compilerControlled => "privatescope"
  | privateAccess => "private"
  | familyAndAssembly => "famandassem"
  | assembly => "assembly"
  | family => "family"
  | familyOrAssembly => "famorassem"
  | publicAccess => "public"

def rank : Accessibility → Nat
  | compilerControlled => 0
  | privateAccess => 1
  | familyAndAssembly => 2
  | assembly => 3
  | family => 4
  | familyOrAssembly => 5
  | publicAccess => 6

end Accessibility

/-! The bits of a type's flags. -/

namespace TypeFlag

def interfaceBit : Nat := 5
def abstractBit : Nat := 7
def sealedBit : Nat := 8
def serializableBit : Nat := 13
def beforeFieldInitBit : Nat := 20

end TypeFlag

/-! The bits of a method's flags. -/

namespace MethodFlag

def staticBit : Nat := 4
def finalBit : Nat := 5
def virtualBit : Nat := 6
def hideBySigBit : Nat := 7
def newSlotBit : Nat := 8
def abstractBit : Nat := 10
def specialNameBit : Nat := 11
def runtimeSpecialNameBit : Nat := 12

/-- All bits that say something about a method other than who may use it. -/
def known : Nat := 0x3FF0

end MethodFlag

/-! The bits of a field's flags. -/

namespace FieldFlag

def staticBit : Nat := 4
def initOnlyBit : Nat := 5
def literalBit : Nat := 6
def runtimeNameBit : Nat := 10

/-- All bits that say something about a field other than who may use it. -/
def known : Nat := 0x86F0

end FieldFlag

/-- The role of a method as an accessor of a property or an event. -/
inductive AccessorRole where
  | setter
  | getter
  | other
  | adder
  | remover
  | raiser
  deriving DecidableEq, Repr

namespace AccessorRole

/-- The role that exactly one set bit stands for. -/
def ofBits? : Nat → Option AccessorRole
  | 0x01 => some setter
  | 0x02 => some getter
  | 0x04 => some other
  | 0x08 => some adder
  | 0x10 => some remover
  | 0x20 => some raiser
  | _ => none

def name : AccessorRole → String
  | setter => "Setter"
  | getter => "Getter"
  | other => "Other"
  | adder => "AddOn"
  | remover => "RemoveOn"
  | raiser => "Fire"

end AccessorRole
end AssemblyBrowser
