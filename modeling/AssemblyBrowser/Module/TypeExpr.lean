import AssemblyBrowser.Metadata.Signature
import AssemblyBrowser.Module.TypeName

/-!
# Type expressions

The types of members as they are shown and searched: signatures in which every
token has become a name.
-/

namespace AssemblyBrowser

namespace Primitive

def csharp : Primitive → String
  | void => "void"
  | boolean => "bool"
  | char => "char"
  | int8 => "sbyte"
  | uint8 => "byte"
  | int16 => "short"
  | uint16 => "ushort"
  | int32 => "int"
  | uint32 => "uint"
  | int64 => "long"
  | uint64 => "ulong"
  | single => "float"
  | double => "double"
  | string => "string"
  | object => "object"
  | intPtr => "nint"
  | uintPtr => "nuint"
  | typedReference => "TypedReference"

def il : Primitive → String
  | void => "void"
  | boolean => "bool"
  | char => "char"
  | int8 => "int8"
  | uint8 => "uint8"
  | int16 => "int16"
  | uint16 => "uint16"
  | int32 => "int32"
  | uint32 => "uint32"
  | int64 => "int64"
  | uint64 => "uint64"
  | single => "float32"
  | double => "float64"
  | string => "string"
  | object => "object"
  | intPtr => "native int"
  | uintPtr => "native uint"
  | typedReference => "typedref"

/-- The name of a primitive type in the `System` namespace. -/
def systemName : Primitive → String
  | void => "Void"
  | boolean => "Boolean"
  | char => "Char"
  | int8 => "SByte"
  | uint8 => "Byte"
  | int16 => "Int16"
  | uint16 => "UInt16"
  | int32 => "Int32"
  | uint32 => "UInt32"
  | int64 => "Int64"
  | uint64 => "UInt64"
  | single => "Single"
  | double => "Double"
  | string => "String"
  | object => "Object"
  | intPtr => "IntPtr"
  | uintPtr => "UIntPtr"
  | typedReference => "TypedReference"

def all : List Primitive :=
  [void, boolean, char, int8, uint8, int16, uint16, int32, uint32, int64, uint64, single, double,
    string, object, intPtr, uintPtr, typedReference]

/-- The primitive type of that name in the `System` namespace. -/
def ofSystemName? (name : String) : Option Primitive := all.find? (·.systemName == name)

end Primitive

/-- A type with all tokens resolved to names. -/
inductive TypeExpr where
  | primitive (type : Primitive)
  | named (name : TypeName)
  | generic (name : TypeName) (arguments : List TypeExpr)
  | parameter (name : String)
  | vector (element : TypeExpr)
  | array (element : TypeExpr) (rank : Nat)
  | pointer (target : TypeExpr)
  | reference (target : TypeExpr)
  | functionPointer
  deriving Inhabited

namespace TypeExpr

/-- The root of the class hierarchy as a primitive type. -/
def object : TypeExpr := .primitive .object

/-- The return type of a method that returns nothing. -/
def void : TypeExpr := .primitive .void

def ofName (namespaceName name : String) : TypeExpr :=
  .named { namespaceName := namespaceName, name := name }

/-- The named type inside an expression, reached through arrays, pointers and references. -/
def typeName? : TypeExpr → Option TypeName
  | named name => some name
  | generic name _ => some name
  | vector inner => inner.typeName?
  | array inner _ => inner.typeName?
  | pointer inner => inner.typeName?
  | reference inner => inner.typeName?
  | primitive _ => none
  | parameter _ => none
  | functionPointer => none

mutual
/-- Whether an expression names the type of that full name anywhere. -/
def mentions (fullName : String) : TypeExpr → Bool
  | primitive type => fullName == "System." ++ type.systemName
  | named name => name.fullName == fullName
  | generic name arguments =>
      name.fullName == fullName || mentionsAny fullName arguments
  | vector inner => mentions fullName inner
  | array inner _ => mentions fullName inner
  | pointer inner => mentions fullName inner
  | reference inner => mentions fullName inner
  | parameter _ => false
  | functionPointer => false

/-- Whether any of the expressions names the type. -/
def mentionsAny (fullName : String) : List TypeExpr → Bool
  | [] => false
  | type :: rest => mentions fullName type || mentionsAny fullName rest
end

mutual
def text : TypeExpr → String
  | primitive type => type.csharp
  | named name => name.shortName
  | generic name arguments =>
      match name.fullName == "System.Nullable`1", texts arguments with
      | true, [argument] => argument ++ "?"
      | _, arguments => name.shortName ++ "<" ++ String.intercalate ", " arguments ++ ">"
  | parameter name => name
  | vector inner => text inner ++ "[]"
  | array inner rank => text inner ++ "[" ++ String.ofList (List.replicate (rank - 1) ',') ++ "]"
  | pointer inner => text inner ++ "*"
  | reference inner => "ref " ++ text inner
  | functionPointer => "delegate*"

def texts : List TypeExpr → List String
  | [] => []
  | type :: rest => text type :: texts rest
end

mutual
/-- The form of a type in IL, with the assembly of every name that has one. -/
def ilText : TypeExpr → String
  | primitive type => type.il
  | named name => ilName name
  | generic name arguments =>
      ilName name ++ "<" ++ String.intercalate ", " (ilTexts arguments) ++ ">"
  | parameter name => "!" ++ name
  | vector inner => ilText inner ++ "[]"
  | array inner rank =>
      ilText inner ++ "[" ++ String.intercalate "," (List.replicate rank "0...") ++ "]"
  | pointer inner => ilText inner ++ "*"
  | reference inner => ilText inner ++ "&"
  | functionPointer => "method"

def ilTexts : List TypeExpr → List String
  | [] => []
  | type :: rest => ilText type :: ilTexts rest

def ilName (name : TypeName) : String :=
  match name.scope with
  | some scope => "[" ++ scope ++ "]" ++ name.fullName
  | none => name.fullName
end

/-- Whether an expression is the root of the class hierarchy, under its keyword or its name. -/
def isObject : TypeExpr → Bool
  | primitive type => type == .object
  | named name => name.isObject
  | _ => false

end TypeExpr
end AssemblyBrowser
