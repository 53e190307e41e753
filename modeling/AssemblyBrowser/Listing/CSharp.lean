import AssemblyBrowser.Listing.Source
import AssemblyBrowser.Module.Basic

/-!
# Listings in C#

Declarations of assemblies, types and members, without bodies. Accessors are
folded into their property or event.
-/

namespace AssemblyBrowser.CSharp

/-- The words in front of a type that restrict it. -/
def typeRestriction (type : TypeDefinition) : List String :=
  if type.kind ≠ .classType then []
  else if type.isStatic then ["static"]
  else if type.isAbstract then ["abstract"]
  else if type.isSealed then ["sealed"]
  else []

def kindKeyword : TypeKind → String
  | .classType => "class"
  | .delegateType => "class"
  | .interfaceType => "interface"
  | .structType => "struct"
  | .enumType => "enum"

/-- The base type of a class, unless it is the root, and the interfaces. -/
def listedBases (type : TypeDefinition) : List TypeExpr :=
  (if type.kind = .classType then type.base.toList.filter (!·.isObject) else []) ++ type.interfaces

def typeHeader (type : TypeDefinition) : String :=
  let header := String.intercalate " "
    ([type.accessibility.csharp] ++ typeRestriction type
      ++ [kindKeyword type.kind, type.displayName])
  match listedBases type with
  | [] => header
  | bases => header ++ " : " ++ String.intercalate ", " (bases.map TypeExpr.text)

/-- Texts with their positions, each shown by a function of both, separated by commas. -/
def numbered {α : Type} (display : Nat → α → String) (items : List α) : String :=
  String.intercalate ", " (items.zipIdx.map fun (item, index) => display index item)

/-- The parameters of a method; one without a name gets its position as a name. -/
def parameterList (method : MethodDefinition) : String :=
  numbered (fun index (parameter : Parameter) =>
    parameter.type.text ++ " " ++
      (if parameter.name.isEmpty then s!"arg{index}" else parameter.name)) method.parameters

/-- The declaration of a delegate, after its method `Invoke`. -/
def delegateDeclaration (m : CodeModule) (type : TypeDefinition) : String :=
  let invoke := (type.methods.filterMap m.method?).find? (·.name == "Invoke")
  let result := (invoke.map fun method => method.returnType.text).getD "void"
  let parameters := (invoke.map parameterList).getD ""
  type.accessibility.csharp ++ " delegate " ++ result ++ " " ++ type.displayName
    ++ "(" ++ parameters ++ ");"

/-- The words in front of a method; there are none inside an interface. -/
def methodModifiers (owner : TypeDefinition) (method : MethodDefinition) : List String :=
  if owner.kind = .interfaceType then []
  else
    [method.accessibility.csharp]
      ++ (if method.isStatic then ["static"] else [])
      ++ (if method.isAbstract then ["abstract"]
          else if method.isOverride then ["override"]
          else if method.isVirtual then ["virtual"]
          else [])

def methodDeclaration (owner : TypeDefinition) (method : MethodDefinition) : String :=
  let ownerName := stripArity owner.name
  let arguments := "(" ++ parameterList method ++ ");"
  if method.name = ".cctor" then "static " ++ ownerName ++ "();"
  else if method.name = ".ctor" then
    String.intercalate " " (methodModifiers owner method ++ [ownerName ++ arguments])
  else
    String.intercalate " " (methodModifiers owner method ++
      [method.returnType.text, withGenerics method.name method.genericParameters ++ arguments])

def fieldDeclaration (owner : TypeDefinition) (field : FieldDefinition) : String :=
  let access := if owner.kind = .interfaceType then [] else [field.accessibility.csharp]
  let storage :=
    if field.isLiteral then ["const"]
    else
      (if field.isStatic then ["static"] else []) ++ (if field.isReadOnly then ["readonly"] else [])
  let value :=
    match field.constant, field.isLiteral with
    | some value, true => field.name ++ " = " ++ value.display ++ ";"
    | _, _ => field.name ++ ";"
  String.intercalate " " (access ++ storage ++ [field.type.text, value])

/-- The more widely usable of two methods; the second if they are equally usable. -/
def wider (first second : MethodDefinition) : MethodDefinition :=
  if second.accessibility.rank < first.accessibility.rank then first else second

/-- The most widely usable accessor; of several, the last. -/
def widestAccessor? (m : CodeModule) (accessors : List (Option Token)) : Option MethodDefinition :=
  match accessors.filterMap (·.bind m.method?) with
  | [] => none
  | first :: rest => some (rest.foldl wider first)

/-- The words in front of a property or an event, which are those of its widest accessor. -/
def accessorModifiers (m : CodeModule) (owner : TypeDefinition) (accessors : List (Option Token)) :
    List String :=
  ((widestAccessor? m accessors).map (methodModifiers owner)).getD []

def propertyDeclaration (m : CodeModule) (owner : TypeDefinition) (property : PropertyDefinition) :
    String :=
  let name :=
    if property.parameters.isEmpty then property.name
    else
      "this[" ++ numbered (fun index (type : TypeExpr) => type.text ++ s!" index{index}")
        property.parameters ++ "]"
  let accessors :=
    (if property.getter.isSome then ["get;"] else [])
      ++ (if property.setter.isSome then ["set;"] else [])
  String.intercalate " " (accessorModifiers m owner [property.getter, property.setter] ++
    [property.type.text, name, "\x7b " ++ String.intercalate " " accessors ++ " \x7d"])

def eventDeclaration (m : CodeModule) (owner : TypeDefinition) (event : EventDefinition) : String :=
  String.intercalate " " (accessorModifiers m owner [event.adder, event.remover] ++
    ["event", event.type.text, event.name ++ ";"])

def enumLine (field : FieldDefinition) : String :=
  match field.constant with
  | some value => field.name ++ " = " ++ value.display ++ ","
  | none => field.name ++ ","

/-- The declarations of the members of a type, by kind: fields, events, properties, methods. -/
def memberLines (m : CodeModule) (type : TypeDefinition) : List String :=
  (type.fields.filterMap m.field?).map (fieldDeclaration type)
    ++ (type.events.filterMap m.event?).map (eventDeclaration m type)
    ++ (type.properties.filterMap m.property?).map (propertyDeclaration m type)
    ++ ((type.methods.filterMap m.method?).filter (!·.isAccessor)).map (methodDeclaration type)

/-- Whether the types nested in a type are shown. -/
def showsNested (type : TypeDefinition) : Bool :=
  type.kind != .delegateType && type.kind != .enumType

mutual
/-- The declaration of a type with all that is in it. -/
def typeSource (m : CodeModule) : TypeTree → List Source
  | .node type nested =>
      match type.kind with
      | .delegateType => [.line (delegateDeclaration m type)]
      | .enumType =>
          let literals := (type.fields.filterMap m.field?).filter FieldDefinition.isLiteral
          [.line (typeHeader type), .block (literals.map fun field => .line (enumLine field)) ""]
      | _ =>
          [.line (typeHeader type),
            .block ((memberLines m type).map .line ++ nestedSource m nested) ""]

def nestedSource (m : CodeModule) : List TypeTree → List Source
  | [] => []
  | type :: rest => .line "" :: typeSource m type ++ nestedSource m rest
end

/-- The listing of a type, inside its namespace if it has one. -/
def typeListing (m : CodeModule) (token : Token) : Except Error (List Source) := do
  let some type := m.type? token | throw (.typeNotFound token)
  let tree ← m.typeTree showsNested type
  if type.namespaceName.isEmpty then return typeSource m tree
  else return [.line ("namespace " ++ type.namespaceName), .block (typeSource m tree) ""]

/-- The listing of a member behind the full name of its type. -/
def memberListing (m : CodeModule) (token : Token) : Except Error (List Source) := do
  let some entity := m.entity? token | throw (.memberNotFound token)
  let some declaring := entity.declaringType | throw (.memberNotFound token)
  let some owner := m.type? declaring | throw (.typeNotFound declaring)
  let declaration ←
    match entity with
    | .method method => pure (methodDeclaration owner method)
    | .field field => pure (fieldDeclaration owner field)
    | .property property => pure (propertyDeclaration m owner property)
    | .event event => pure (eventDeclaration m owner event)
    | .type _ => throw (.memberNotFound token)
  return [.line ("// " ++ m.fullName declaring), .line declaration]

/-- The listing of an assembly: what it says about itself. -/
def assemblyListing (archivePath : String) (m : CodeModule) : List Source :=
  let title := (m.assembly.map AssemblyIdentity.text).getD m.name
  let entryPoint := (m.entryPoint.bind m.method?).toList.map fun method =>
    "// Entry point: " ++ m.fullName method.declaringType ++ "." ++ method.name
  let mvid := m.mvid.toList.map fun mvid => "// MVID: " ++ mvid.text
  let attributes := m.assembly.toList.flatMap fun identity =>
    ["", "using System.Reflection;", "",
      "[assembly: AssemblyVersion(\"" ++ identity.version.text ++ "\")]"]
      ++ identity.culture.toList.map fun culture =>
        "[assembly: AssemblyCulture(\"" ++ culture ++ "\")]"
  (["// " ++ archivePath, "// " ++ title] ++ entryPoint ++ ["// Runtime: " ++ m.runtimeVersion]
    ++ mvid ++ attributes).map .line

end AssemblyBrowser.CSharp
