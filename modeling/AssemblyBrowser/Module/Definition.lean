import AssemblyBrowser.Module.Attributes
import AssemblyBrowser.Module.Constant
import AssemblyBrowser.Module.TypeExpr
import AssemblyBrowser.Text.Numeral

/-!
# Definitions

What a module defines: types and their methods, fields, properties and events.
Definitions refer to one another by token. An assembly is told apart by its identity.
-/

namespace AssemblyBrowser

/-!
## Identities

An assembly is identified by its name, its four-part version, its culture and a token of its public
key.
-/

/-- A four-part version. -/
structure Version where
  major : Nat
  minor : Nat
  build : Nat
  revision : Nat
  deriving DecidableEq

def Version.joined (version : Version) (separator : String) : String :=
  String.intercalate separator
    ([version.major, version.minor, version.build, version.revision].map toString)

def Version.text (version : Version) : String := version.joined "."

/-- What tells assemblies apart. -/
structure AssemblyIdentity where
  name : String
  version : Version
  culture : Option String := none
  publicKeyToken : Option Bytes := none
  deriving DecidableEq

def AssemblyIdentity.text (identity : AssemblyIdentity) : String :=
  identity.name ++ ", Version=" ++ identity.version.text ++ ", Culture="
    ++ identity.culture.getD "neutral" ++ ", PublicKeyToken="
    ++ ((identity.publicKeyToken.map Hex.ofBytes).getD "null")

/-!
## Types and members
-/

/-- The kinds of types that are told apart. -/
inductive TypeKind where
  | classType
  | interfaceType
  | structType
  | enumType
  | delegateType
  deriving DecidableEq, Repr

namespace TypeKind

def all : List TypeKind := [.classType, .interfaceType, .structType, .enumType, .delegateType]

def name : TypeKind → String
  | .classType => "Class"
  | .interfaceType => "Interface"
  | .structType => "Struct"
  | .enumType => "Enum"
  | .delegateType => "Delegate"

def ofName? (name : String) : Option TypeKind := all.find? (·.name == name)

/-- The kind of a type with these flags, this base type and this full name. -/
def classify (flags : Nat) (base : Option TypeName) (fullName : String) : TypeKind :=
  if flags.testBit TypeFlag.interfaceBit then .interfaceType
  else
    match base.map TypeName.fullName with
    | none => .classType
    | some baseName =>
        if baseName = "System.Enum" then .enumType
        else if baseName = "System.ValueType" ∧ fullName ≠ "System.Enum" then .structType
        else if baseName = "System.MulticastDelegate" ∧ fullName ≠ "System.Delegate" then
          .delegateType
        else .classType

end TypeKind

/-- Whether compilers rather than people write such a name. -/
def isGeneratedName (name : String) : Bool := name.startsWith "<"

/-- A name followed by generic parameters in angle brackets, if there are any. -/
def withGenerics (name : String) (parameters : List String) : String :=
  if parameters.isEmpty then name
  else name ++ "<" ++ String.intercalate ", " parameters ++ ">"

/-- The definition of a type. -/
structure TypeDefinition where
  token : Token
  namespaceName : String
  name : String
  flags : Nat
  kind : TypeKind := .classType
  base : Option TypeExpr := none
  interfaces : List TypeExpr := []
  genericParameters : List String := []
  declaringType : Option Token := none
  nestedTypes : List Token := []
  fields : List Token := []
  methods : List Token := []
  properties : List Token := []
  events : List Token := []

namespace TypeDefinition

def accessibility (type : TypeDefinition) : Accessibility := .ofTypeFlags type.flags

/-- Whether no instance of exactly this type can exist. -/
def isAbstract (type : TypeDefinition) : Bool := type.flags.testBit TypeFlag.abstractBit

def isSealed (type : TypeDefinition) : Bool := type.flags.testBit TypeFlag.sealedBit

def isStatic (type : TypeDefinition) : Bool :=
  type.kind == .classType && type.isAbstract && type.isSealed

def isCompilerGenerated (type : TypeDefinition) : Bool := isGeneratedName type.name

/-- The name with generic parameters in the place of the arity. -/
def displayName (type : TypeDefinition) : String :=
  withGenerics (stripArity type.name) type.genericParameters

/-- The full names of the base type and of the interfaces. -/
def directSupertypes (type : TypeDefinition) : List String :=
  (type.base.toList ++ type.interfaces).filterMap fun supertype =>
    supertype.typeName?.map TypeName.fullName

/-- Whether the base type or an interface has that full name. -/
def derivesDirectlyFrom (type : TypeDefinition) (fullName : String) : Bool :=
  type.directSupertypes.contains fullName

end TypeDefinition

/-- A parameter of a method. -/
structure Parameter where
  name : String := ""
  type : TypeExpr

/-- The definition of a method. -/
structure MethodDefinition where
  token : Token
  name : String
  flags : Nat
  declaringType : Token
  returnType : TypeExpr
  parameters : List Parameter
  genericParameters : List String := []
  role : Option AccessorRole := none

namespace MethodDefinition

def accessibility (method : MethodDefinition) : Accessibility := .ofMemberFlags method.flags

def modifierBits (method : MethodDefinition) : Nat := method.flags &&& MethodFlag.known

/-- Whether the method creates or initialises its type. -/
def isConstructor (method : MethodDefinition) : Bool :=
  method.name == ".ctor" || method.name == ".cctor"

/-- Whether the method is called without an instance. -/
def isStatic (method : MethodDefinition) : Bool := method.flags.testBit MethodFlag.staticBit

/-- Whether the method belongs to a property or an event. -/
def isAccessor (method : MethodDefinition) : Bool := method.role.isSome

def hasVirtualFlag (method : MethodDefinition) : Bool := method.flags.testBit MethodFlag.virtualBit

/-- Whether the method takes a slot of its own among the virtual methods. -/
def hasNewSlotFlag (method : MethodDefinition) : Bool := method.flags.testBit MethodFlag.newSlotBit

/-- Whether the method takes the place of an inherited one. -/
def isOverride (method : MethodDefinition) : Bool := method.hasVirtualFlag && !method.hasNewSlotFlag

/-- Whether the method introduces a virtual method. -/
def isVirtual (method : MethodDefinition) : Bool :=
  method.hasVirtualFlag && method.hasNewSlotFlag && !method.flags.testBit MethodFlag.finalBit

def isAbstract (method : MethodDefinition) : Bool := method.flags.testBit MethodFlag.abstractBit

def isSpecialName (method : MethodDefinition) : Bool :=
  method.flags.testBit MethodFlag.specialNameBit

end MethodDefinition

/-- The definition of a field. -/
structure FieldDefinition where
  token : Token
  name : String
  flags : Nat
  declaringType : Token
  type : TypeExpr
  constant : Option Constant := none

namespace FieldDefinition

def accessibility (field : FieldDefinition) : Accessibility := .ofMemberFlags field.flags

def modifierBits (field : FieldDefinition) : Nat := field.flags &&& FieldFlag.known

def isLiteral (field : FieldDefinition) : Bool := field.flags.testBit FieldFlag.literalBit

/-- Whether the field belongs to its type and not to instances. -/
def isStatic (field : FieldDefinition) : Bool := field.flags.testBit FieldFlag.staticBit

def isReadOnly (field : FieldDefinition) : Bool := field.flags.testBit FieldFlag.initOnlyBit

/-- Whether the name has a meaning to the runtime, as the value of an enumeration has. -/
def hasRuntimeName (field : FieldDefinition) : Bool :=
  field.flags.testBit FieldFlag.runtimeNameBit

end FieldDefinition

/-- The definition of a property; an indexer has parameters. -/
structure PropertyDefinition where
  token : Token
  name : String
  flags : Nat := 0
  declaringType : Token
  type : TypeExpr
  parameters : List TypeExpr := []
  getter : Option Token := none
  setter : Option Token := none

/-- The definition of an event. -/
structure EventDefinition where
  token : Token
  name : String
  flags : Nat := 0
  declaringType : Token
  type : TypeExpr
  adder : Option Token := none
  remover : Option Token := none
  raiser : Option Token := none

/-- A definition of any kind. -/
inductive Entity where
  | type (definition : TypeDefinition)
  | method (definition : MethodDefinition)
  | field (definition : FieldDefinition)
  | property (definition : PropertyDefinition)
  | event (definition : EventDefinition)

namespace Entity

def token : Entity → Token
  | type definition => definition.token
  | method definition => definition.token
  | field definition => definition.token
  | property definition => definition.token
  | event definition => definition.token

def name : Entity → String
  | type definition => definition.name
  | method definition => definition.name
  | field definition => definition.name
  | property definition => definition.name
  | event definition => definition.name

def declaringType : Entity → Option Token
  | type definition => definition.declaringType
  | method definition => some definition.declaringType
  | field definition => some definition.declaringType
  | property definition => some definition.declaringType
  | event definition => some definition.declaringType

end Entity

/-- A reference to another assembly. -/
structure AssemblyReference where
  token : Token
  identity : AssemblyIdentity

/-- Where the bytes of a resource are. -/
inductive ResourceLocation where
  | embedded
  | file (name : String)
  | assembly (name : String)
  deriving DecidableEq

/-- A resource that a module lists. -/
structure ManifestResource where
  token : Token
  name : String
  isPublic : Bool
  length : Option Nat
  location : ResourceLocation

end AssemblyBrowser
