import AssemblyBrowser.Listing.Source
import AssemblyBrowser.Module.Basic

/-!
# Listings in IL

Declarations in the assembler's notation. Methods have empty bodies; properties
and events name their accessors.
-/

namespace AssemblyBrowser.Il

/-- Bytes in upper case with spaces between them. -/
def byteList (bytes : Bytes) : String :=
  String.intercalate " " (bytes.toList.map fun byte => (Hex.padded 2 byte.toNat).toUpper)

def versionDirective (version : Version) : String := ".ver " ++ version.joined ":"

def visibility (type : TypeDefinition) : String :=
  if type.declaringType.isSome then "nested " ++ type.accessibility.il
  else if type.flags % 8 = 1 then "public"
  else "private"

def classHeader (m : CodeModule) (type : TypeDefinition) : String :=
  let flag := fun (bit : Nat) (word : String) => if type.flags.testBit bit then [word] else []
  let name := if type.declaringType.isSome then type.name else m.fullName type.token
  String.intercalate " "
    ([".class", visibility type]
      ++ (if type.kind = .interfaceType then ["interface"] else [])
      ++ ["auto ansi"]
      ++ flag TypeFlag.abstractBit "abstract"
      ++ flag TypeFlag.sealedBit "sealed"
      ++ flag TypeFlag.serializableBit "serializable"
      ++ flag TypeFlag.beforeFieldInitBit "beforefieldinit"
      ++ [withGenerics name type.genericParameters])

def fieldDirective (field : FieldDefinition) : String :=
  let word := fun (present : Bool) (word : String) => if present then [word] else []
  let value :=
    match field.isLiteral, field.constant with
    | true, some value => ["= " ++ value.display]
    | _, _ => []
  String.intercalate " "
    ([".field", field.accessibility.il]
      ++ word field.isStatic "static"
      ++ word field.isReadOnly "initonly"
      ++ word field.isLiteral "literal"
      ++ [field.type.ilText, field.name] ++ value)

/-- The words for the flags of a method, in the order in which they are written. -/
def methodFlagWords : List (Nat × String) :=
  [(MethodFlag.finalBit, "final"), (MethodFlag.hideBySigBit, "hidebysig"),
    (MethodFlag.newSlotBit, "newslot"), (MethodFlag.specialNameBit, "specialname"),
    (MethodFlag.runtimeSpecialNameBit, "rtspecialname"), (MethodFlag.abstractBit, "abstract"),
    (MethodFlag.virtualBit, "virtual"), (MethodFlag.staticBit, "static")]

/-- The type of a parameter with its name, if it has one. -/
def parameterText (parameter : Parameter) : String :=
  if parameter.name.isEmpty then parameter.type.ilText
  else parameter.type.ilText ++ " " ++ parameter.name

def methodHeader (method : MethodDefinition) : String :=
  let words := methodFlagWords.filterMap fun (bit, word) =>
    if method.flags.testBit bit then some word else none
  let parameters := String.intercalate ", " (method.parameters.map parameterText)
  String.intercalate " "
    ([".method", method.accessibility.il] ++ words
      ++ (if method.isStatic then [] else ["instance"])
      ++ [method.returnType.ilText,
        withGenerics method.name method.genericParameters ++ " (" ++ parameters ++ ")",
        "cil managed"])

def methodSource (owner : TypeDefinition) (method : MethodDefinition) : List Source :=
  [.line (methodHeader method),
    .block [] (" // end of method " ++ owner.name ++ "::" ++ method.name)]

/-- The line that names an accessor, if it can be found. -/
def accessorLine? (m : CodeModule) (owner : TypeDefinition) (directive : String)
    (token : Option Token) : Option Source :=
  (token.bind m.method?).map fun method =>
    let parameters := String.intercalate ", " (method.parameters.map (·.type.ilText))
    .line (directive ++ " " ++ (if method.isStatic then "" else "instance ")
      ++ method.returnType.ilText ++ " " ++ m.fullName owner.token ++ "::" ++ method.name
      ++ "(" ++ parameters ++ ")")

def propertySource (m : CodeModule) (owner : TypeDefinition) (property : PropertyDefinition) :
    List Source :=
  let instanceWord :=
    if ((property.getter <|> property.setter).bind m.method?).any (!·.isStatic) then "instance "
    else ""
  let parameters := String.intercalate ", " (property.parameters.map TypeExpr.ilText)
  [.line (".property " ++ instanceWord ++ property.type.ilText ++ " " ++ property.name
      ++ "(" ++ parameters ++ ")"),
    .block
      ([(".get", property.getter), (".set", property.setter)].filterMap fun (directive, token) =>
        accessorLine? m owner directive token) ""]

def eventSource (m : CodeModule) (owner : TypeDefinition) (event : EventDefinition) :
    List Source :=
  [.line (".event " ++ event.type.ilText ++ " " ++ event.name),
    .block
      ([(".addon", event.adder), (".removeon", event.remover), (".fire", event.raiser)].filterMap
        fun (directive, token) => accessorLine? m owner directive token) ""]

/-- The members of a type, by kind: fields, methods, properties, events. -/
def memberSource (m : CodeModule) (type : TypeDefinition) : List Source :=
  ((type.fields.filterMap m.field?).map fun field => .line (fieldDirective field))
    ++ (type.methods.filterMap m.method?).flatMap (methodSource type)
    ++ (type.properties.filterMap m.property?).flatMap (propertySource m type)
    ++ (type.events.filterMap m.event?).flatMap (eventSource m type)

/-- The lines about what a type extends and implements. -/
def supertypeLines (type : TypeDefinition) : List Source :=
  (type.base.toList.map fun base => .line ("    extends " ++ base.ilText))
    ++ (if type.interfaces.isEmpty then []
        else [.line ("    implements "
          ++ String.intercalate ", " (type.interfaces.map TypeExpr.ilText))])

mutual
/-- The declaration of a type with all that is in it. -/
def typeSource (m : CodeModule) : TypeTree → List Source
  | .node type nested =>
      .line (classHeader m type) :: supertypeLines type
        ++ [.block (nestedSource m nested ++ memberSource m type) ""]

/-- Nested types, each in front of an empty line. -/
def nestedSource (m : CodeModule) : List TypeTree → List Source
  | [] => []
  | type :: rest => typeSource m type ++ .line "" :: nestedSource m rest
end

def typeListing (m : CodeModule) (token : Token) : Except Error (List Source) := do
  let some type := m.type? token | throw (.typeNotFound token)
  let tree ← m.typeTree (fun _ => true) type
  return typeSource m tree

/-- The listing of a member behind the full name of its type. -/
def memberListing (m : CodeModule) (token : Token) : Except Error (List Source) := do
  let some entity := m.entity? token | throw (.memberNotFound token)
  let some declaring := entity.declaringType | throw (.memberNotFound token)
  let some owner := m.type? declaring | throw (.typeNotFound declaring)
  let declaration ←
    match entity with
    | .method method => pure (methodSource owner method)
    | .field field => pure [.line (fieldDirective field)]
    | .property property => pure (propertySource m owner property)
    | .event event => pure (eventSource m owner event)
    | .type _ => throw (.memberNotFound token)
  return .line ("// " ++ m.fullName declaring) :: declaration

def referenceSource (reference : AssemblyReference) : List Source :=
  let key := reference.identity.publicKeyToken.toList.map fun token =>
    ".publickeytoken = (" ++ byteList token ++ ")"
  [.line (".assembly extern " ++ reference.identity.name),
    .block ((key ++ [versionDirective reference.identity.version]).map .line) ""]

def identitySource (identity : AssemblyIdentity) : List Source :=
  let culture := identity.culture.toList.map fun culture => ".culture \"" ++ culture ++ "\""
  [.line (".assembly " ++ identity.name),
    .block ((versionDirective identity.version :: culture).map .line) ""]

def resourceSource (resource : ManifestResource) : List Source :=
  let visibility := if resource.isPublic then "public" else "private"
  [.line (".mresource " ++ visibility ++ " '" ++ resource.name ++ "'"), .block [] ""]

/-- The listing of an assembly: its references, its identity, its module and its resources. -/
def assemblyListing (archivePath : String) (m : CodeModule) : List Source :=
  .line ("// " ++ archivePath) :: m.references.toList.flatMap referenceSource
    ++ m.assembly.toList.flatMap identitySource
    ++ [.line (".module " ++ m.name)]
    ++ (m.mvid.toList.map fun mvid => .line ("// MVID: \x7b" ++ mvid.text ++ "\x7d"))
    ++ m.resources.toList.flatMap resourceSource

end AssemblyBrowser.Il
