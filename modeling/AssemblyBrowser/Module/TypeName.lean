import AssemblyBrowser.Metadata.Token

/-!
# Type names

A generic type's name ends in a backtick and the number of its parameters. Names
are shown without that arity.
-/

namespace AssemblyBrowser

def arityMark : Char := '`'

/-- A name without the arity at its end; the mark alone counts as an arity too. -/
def stripArityChars (name : List Char) : List Char :=
  match name.reverse.dropWhile Char.isDigit with
  | c :: rest => if c = arityMark then rest.reverse else name
  | [] => name

def stripArity (name : String) : String := String.ofList (stripArityChars name.toList)

/-- A qualified name without any arity; `skipping` holds inside the digits of one. -/
def stripAritiesFrom : (skipping : Bool) → List Char → List Char
  | _, [] => []
  | skipping, c :: rest =>
      if skipping && c.isDigit then stripAritiesFrom true rest
      else if c = arityMark ∧ (rest.head?.any Char.isDigit) then stripAritiesFrom true rest
      else c :: stripAritiesFrom false rest

/-- A qualified name without any arity; a mark without digits behind it stays. -/
def stripArities (name : String) : String := String.ofList (stripAritiesFrom false name.toList)

/-- The name of a type as a signature refers to it. -/
structure TypeName where
  /-- The namespace; for a nested type the full name of the type around it. -/
  namespaceName : String := ""
  name : String := ""
  /-- The assembly that defines the type, where the reference says so. -/
  scope : Option String := none
  token : Token := Token.zero
  deriving DecidableEq, Inhabited

namespace TypeName

def fullName (name : TypeName) : String :=
  if name.namespaceName.isEmpty then name.name else name.namespaceName ++ "." ++ name.name

def shortName (name : TypeName) : String := stripArity name.name

/-- Whether this is the root of the class hierarchy. -/
def isObject (name : TypeName) : Bool :=
  name.namespaceName == "System" && name.name == "Object"

end TypeName
end AssemblyBrowser
