import AssemblyBrowser.Digest.Sha1
import AssemblyBrowser.Image.Basic
import AssemblyBrowser.Module.Basic
import AssemblyBrowser.Module.Metadata
import AssemblyBrowser.Module.Resolution
import AssemblyBrowser.Text.Utf16

/-!
# Reading modules

Builds a module from the tables of an image. Names and structure must be intact;
a member whose signature cannot be decoded is kept with a placeholder type.
-/

namespace AssemblyBrowser

/-- The token of a public key: the last eight bytes of its digest, reversed. -/
def publicKeyToken? (key : Bytes) : Option Bytes :=
  if key.isEmpty then none else some ((Sha1.digest key).reverse.take 8).toArray

def culture? (name : String) : Option String :=
  if name.isEmpty ∨ name.map Char.toLower = "neutral" then none else some name

/-- The constant that a blob holds as a value of an element type. -/
def decodeConstant (elementType : Nat) (blob : Bytes) : Except Error Constant :=
  let word := fun (width : Nat) => (Decoder.unsigned width).parse blob
  let unsigned := fun (width : Nat) (type : IntegerType) => do
    return Constant.integer type (← word width)
  let signed := fun (width : Nat) (type : IntegerType) => do
    return Constant.integer type (Bytes.twosComplement (8 * width) (← word width))
  match elementType with
  | 0x02 => return .boolean ((← word 1) != 0)
  | 0x03 => do
      let unit ← word 2
      return .char (if 0xD800 ≤ unit ∧ unit < 0xE000 then '\uFFFD' else Char.ofNat unit)
  | 0x04 => signed 1 .int8
  | 0x05 => unsigned 1 .uint8
  | 0x06 => signed 2 .int16
  | 0x07 => unsigned 2 .uint16
  | 0x08 => signed 4 .int32
  | 0x09 => unsigned 4 .uint32
  | 0x0A => signed 8 .int64
  | 0x0B => unsigned 8 .uint64
  | 0x0C => return .single (← word 4)
  | 0x0D => return .double (← word 8)
  | 0x0E => return .text (Utf16.decodeLossy blob)
  | 0x12 => return .null
  | other => .error (.malformed (.constantElementType other))

namespace ImageMetadata

/-- Reads a part of a version; it is held to sixteen bits. -/
def versionPart (metadata : ImageMetadata) (table : TableId) (row column : Nat) :
    Except Error Nat := do
  return min (← metadata.tables.value table row column) 0xFFFF

/-- Reads a version from four columns. -/
def version (metadata : ImageMetadata) (table : TableId) (row first : Nat) :
    Except Error Version := do
  return {
    major := ← metadata.versionPart table row first
    minor := ← metadata.versionPart table row (first + 1)
    build := ← metadata.versionPart table row (first + 2)
    revision := ← metadata.versionPart table row (first + 3) }

/-- Reads what the module says about its assembly. -/
def assembly? (metadata : ImageMetadata) : Except Error (Option AssemblyIdentity) := do
  if metadata.tables.rows .assembly = 0 then return none
  let key ← metadata.blob .assembly 1 6
  let name ← metadata.string .assembly 1 7
  let version ← metadata.version .assembly 1 1
  let culture ← metadata.string .assembly 1 8
  return some {
    name, version
    culture := culture? culture
    publicKeyToken := publicKeyToken? key }

/-- The bit of a reference's flags that says it carries the whole public key. -/
def wholeKeyBit : Nat := 0

def reference (metadata : ImageMetadata) (row : Nat) : Except Error AssemblyReference := do
  let flags ← metadata.tables.value .assemblyRef row 4
  let key ← metadata.blob .assemblyRef row 5
  let token :=
    if flags.testBit wholeKeyBit then publicKeyToken? key
    else if key.size = 8 then some key
    else none
  let name ← metadata.string .assemblyRef row 6
  let version ← metadata.version .assemblyRef row 0
  let culture ← metadata.string .assemblyRef row 7
  return {
    token := TableId.assemblyRef.token row
    identity := { name, version, culture := culture? culture, publicKeyToken := token } }

def referenceName? (references : Array AssemblyReference) (row : Nat) : Option String :=
  if row = 0 then none else (references[row - 1]?).map (·.identity.name)

/-- Where a resource is; the length of one that is embedded comes along, if it can be read. -/
def resourceLocation (metadata : ImageMetadata) (references : Array AssemblyReference)
    (offset : Nat) (implementation : Token) :
    Except Error (ResourceLocation × Option Nat) := do
  if implementation.isNull then return (.embedded, ← metadata.resourceLength offset)
  else if implementation.table = TableId.assemblyRef.number then
    return (.assembly ((referenceName? references implementation.row).getD ""), none)
  else if implementation.table = TableId.file.number then
    return (.file (← metadata.string .file implementation.row 1), none)
  else return (.embedded, none)

def resource (metadata : ImageMetadata) (references : Array AssemblyReference) (row : Nat) :
    Except Error ManifestResource := do
  let offset ← metadata.tables.value .manifestResource row 0
  let flags ← metadata.tables.value .manifestResource row 1
  let implementation ← metadata.tables.coded .manifestResource row 3 .implementation
  let (location, length) ← metadata.resourceLocation references offset implementation
  let name ← metadata.string .manifestResource row 2
  return {
    token := TableId.manifestResource.token row
    name, location, length
    isPublic := flags % 8 == 1 }

/-- A row of the type references before scopes are followed. -/
structure RawTypeReference where
  scope : Token
  name : String
  namespaceName : String

def rawTypeReference (metadata : ImageMetadata) (row : Nat) : Except Error RawTypeReference := do
  let scope ← metadata.tables.coded .typeRef row 0 .resolutionScope
  let name ← metadata.string .typeRef row 1
  let namespaceName ← metadata.string .typeRef row 2
  return { scope, name, namespaceName }

/-- Follows scopes that are type references themselves, collecting them innermost first; the scope
at which the walk ends comes along. A walk of `fuel` steps that has not ended has no scope. -/
def scopeChain (raw : Array RawTypeReference) :
    (fuel : Nat) → Token → List RawTypeReference × Option Token
  | 0, _ => ([], none)
  | fuel + 1, scope =>
      if scope.table = TableId.typeRef.number ∧ ¬ scope.isNull then
        match TypeScope.rowOf? raw scope with
        | none => ([], none)
        | some outer =>
            let (chain, stop) := scopeChain raw fuel outer.scope
            (outer :: chain, stop)
      else ([], some scope)

/-- The name of the type reference at an index: nested references are qualified by the names
around them. -/
def typeReferenceName (references : Array AssemblyReference) (raw : Array RawTypeReference)
    (type : RawTypeReference) (index : Nat) : Except Error TypeName := do
  let (outer, stop) := scopeChain raw (raw.size + 1) type.scope
  let assembly := do
    let scope ← stop
    guard (scope.table = TableId.assemblyRef.number)
    referenceName? references scope.row
  let namespaceName := (outer.getLast?.map RawTypeReference.namespaceName).getD type.namespaceName
  let outerName := String.intercalate "." (outer.reverse.map RawTypeReference.name)
  let row ← Bounded.add UInt32.size (index % UInt32.size) 1
  return {
    namespaceName :=
      if outer.isEmpty then namespaceName
      else if namespaceName.isEmpty then outerName
      else namespaceName ++ "." ++ outerName
    name := type.name
    scope := assembly
    token := TableId.typeRef.token row }

def typeReferences (metadata : ImageMetadata) (references : Array AssemblyReference) :
    Except Error (Array TypeName) := do
  let raw ← (metadata.rows .typeRef).mapM metadata.rawTypeReference
  let names ← raw.zipIdx.mapM fun (type, index) =>
    typeReferenceName references raw.toArray type index
  return names.toArray

/-- A generic parameter with its owner and its number. -/
structure GenericParameterRow where
  owner : Token
  number : Nat
  name : String

def genericParameter (metadata : ImageMetadata) (row : Nat) :
    Except Error GenericParameterRow := do
  let number ← metadata.tables.value .genericParam row 0
  let owner ← metadata.tables.coded .genericParam row 2 .typeOrMethodDef
  let name ← metadata.string .genericParam row 3
  return { owner, number, name }

/-- The names of an owner's generic parameters by number; rows of the same number keep their
order. -/
def genericNamesOf (rows : List GenericParameterRow) (owner : Token) : List String :=
  ((rows.filter (·.owner == owner)).mergeSort fun a b => a.number ≤ b.number).map
    GenericParameterRow.name

/-- Reads the nesting of types: which row stands inside which. -/
def nesting (metadata : ImageMetadata) : Except Error (List (Nat × Nat)) :=
  (metadata.rows .nestedClass).mapM fun row => do
    let nested ← metadata.tables.value .nestedClass row 0
    let outer ← metadata.tables.value .nestedClass row 1
    return (nested, outer)

/-- Reads what stands in the row of a type; supertypes, nested types, properties and events are
found later. -/
def typeSkeleton (metadata : ImageMetadata) (nesting : List (Nat × Nat))
    (generics : List GenericParameterRow) (row : Nat) : Except Error TypeDefinition := do
  let token := TableId.typeDef.token row
  let fields ← metadata.listedRows .typeDef row 4 .field .fieldPtr
  let methods ← metadata.listedRows .typeDef row 5 .methodDef .methodPtr
  let namespaceName ← metadata.string .typeDef row 2
  let name ← metadata.string .typeDef row 1
  let flags ← metadata.tables.value .typeDef row 0
  let existing := fun (table : TableId) (rows : List Nat) =>
    (rows.filter fun r => 1 ≤ r ∧ r ≤ metadata.tables.rows table).map table.token
  return {
    token, namespaceName, name, flags
    genericParameters := genericNamesOf generics token
    declaringType := (nesting.reverse.lookup row).map TableId.typeDef.token
    fields := existing .field fields
    methods := existing .methodDef methods }

/-- The namespace of the outermost type around a row, if the walk ends within `fuel` steps. -/
def outermostNamespace? (types : Array TypeDefinition) : (fuel : Nat) → Token → Option String
  | 0, _ => none
  | fuel + 1, token =>
      match TypeScope.rowOf? types token with
      | none => none
      | some type =>
          match type.declaringType with
          | some outer => outermostNamespace? types fuel outer
          | none => some type.namespaceName

/-- Gives every type the types nested in it, and every nested type the namespace of the outermost
type around it. -/
def linkNesting (types : Array TypeDefinition) : Array TypeDefinition :=
  types.mapIdx fun index type =>
    let nested := types.toList.filter fun inner => inner.declaringType.any (·.row == index + 1)
    { type with
      nestedTypes := nested.map TypeDefinition.token
      namespaceName :=
        match type.declaringType with
        | none => type.namespaceName
        | some outer => (outermostNamespace? types types.size outer).getD type.namespaceName }

def typeSkeletons (metadata : ImageMetadata) : Except Error (Array TypeDefinition) := do
  let nesting ← metadata.nesting
  let generics ← (metadata.rows .genericParam).mapM metadata.genericParameter
  let types ← (metadata.rows .typeDef).mapM (metadata.typeSkeleton nesting generics)
  return linkNesting types.toArray

/-- Reads which types implement which interfaces. -/
def implementations (metadata : ImageMetadata) : Except Error (List (Nat × Token)) :=
  (metadata.rows .interfaceImpl).mapM fun row => do
    let type ← metadata.tables.value .interfaceImpl row 0
    let interface ← metadata.tables.coded .interfaceImpl row 1 .typeDefOrRef
    return (type, interface)

/-- A type with a base type, the interfaces that its tokens name and, from these, its kind. -/
def typeWithSupertypes (scope : TypeScope) (m : CodeModule) (type : TypeDefinition)
    (base : Option TypeExpr) (interfaces : List Token) : Except Error TypeDefinition := do
  let interfaces ← interfaces.mapM (scope.tokenOrObject { ofType := type.genericParameters })
  return { type with
    base, interfaces
    kind := .classify type.flags (base.bind TypeExpr.typeName?) (m.fullName type.token) }

def typeWithHierarchy (metadata : ImageMetadata) (scope : TypeScope) (m : CodeModule)
    (implementations : List (Nat × Token)) (row : Nat) : Except Error TypeDefinition := do
  let index ← Bounded.subtract row 1
  let extended ← metadata.tables.coded .typeDef row 3 .typeDefOrRef
  let type ← Bounded.item m.types index
  let interfaces := (implementations.filter (·.1 == row)).map Prod.snd
  if extended.isNull then typeWithSupertypes scope m type none interfaces
  else
    let base ← scope.tokenOrObject { ofType := type.genericParameters } extended
    typeWithSupertypes scope m type (some base) interfaces

/-- Finds the supertypes of the types and their kinds. -/
def addHierarchy (metadata : ImageMetadata) (scope : TypeScope) (m : CodeModule) :
    Except Error CodeModule := do
  let implementations ← metadata.implementations
  let types ← (metadata.rows .typeDef).mapM (metadata.typeWithHierarchy scope m implementations)
  return { m with types := types.toArray }

/-- The owner of each of `count` members, where types list their members; the last type to list
a member owns it. -/
def ownersFromLists (types : Array TypeDefinition) (members : TypeDefinition → List Token)
    (count : Nat) : Except Error (Array Token) :=
  types.toList.foldlM
    (fun owners type =>
      (members type).foldlM
        (fun owners m => do
          Bounded.replace owners (← Bounded.subtract m.row 1) type.token) owners)
    (Array.replicate count Token.zero)

def ownerOf (owners : Array Token) (row : Nat) : Except Error Token := do
  Bounded.item owners (← Bounded.subtract row 1)

def typeGenerics (m : CodeModule) (type : Token) : List String :=
  ((m.type? type).map TypeDefinition.genericParameters).getD []

def addFields (metadata : ImageMetadata) (scope : TypeScope) (m : CodeModule) :
    Except Error CodeModule := do
  let owners ← ownersFromLists m.types TypeDefinition.fields (metadata.tables.rows .field)
  let fields ← (metadata.rows .field).mapM fun row => do
    let declaringType ← ownerOf owners row
    let signature := (metadata.blob .field row 2).bind Signature.field.parse
    let name ← metadata.string .field row 1
    let flags ← metadata.tables.value .field row 0
    let type ← scope.signatureOrObject { ofType := typeGenerics m declaringType } signature
    return ({
      token := TableId.field.token row
      name, declaringType, type
      flags := flags % UInt16.size } : FieldDefinition)
  return { m with fields := fields.toArray }

/-- Names the parameters of a method from the rows of its parameter list. -/
def nameParameters (metadata : ImageMetadata) (parameters : List Parameter) :
    List Nat → Except Error (List Parameter)
  | [] => return parameters
  | pointer :: rest => do
      let row ← metadata.tables.indirect .paramPtr pointer
      if row = 0 ∨ metadata.tables.rows .param < row then
        nameParameters metadata parameters rest
      else
        let sequence ← metadata.tables.value .param row 1
        if sequence = 0 ∨ parameters.length < sequence then
          nameParameters metadata parameters rest
        else
          let name ← metadata.string .param row 2
          nameParameters metadata
            (parameters.modify (sequence - 1) fun p => { p with name := name }) rest

/-- The return type and the parameters of a method; without a signature it has none. -/
def methodTypes (metadata : ImageMetadata) (scope : TypeScope) (names : GenericNames)
    (row : Nat) : Except Error (TypeExpr × List Parameter) := do
  match ← Error.attempt ((metadata.blob .methodDef row 4).bind Signature.method.parse) with
  | none => return (.void, [])
  | some signature =>
      let returnType ← scope.signatureOrObject names (.ok signature.result)
      let parameters ← signature.parameters.mapM fun type => do
        return ({ type := ← scope.signatureOrObject names (.ok type) } : Parameter)
      return (returnType, parameters)

def addMethods (metadata : ImageMetadata) (scope : TypeScope) (m : CodeModule) :
    Except Error CodeModule := do
  let owners ← ownersFromLists m.types TypeDefinition.methods (metadata.tables.rows .methodDef)
  let generics ← (metadata.rows .genericParam).mapM metadata.genericParameter
  let methods ← (metadata.rows .methodDef).mapM fun row => do
    let declaringType ← ownerOf owners row
    let token := TableId.methodDef.token row
    let genericParameters := genericNamesOf generics token
    let names : GenericNames :=
      { ofType := typeGenerics m declaringType, ofMethod := genericParameters }
    let (returnType, parameters) ← metadata.methodTypes scope names row
    let (first, stop) ← metadata.tables.listRange .methodDef row 5 .param
    let parameters ← nameParameters metadata parameters (List.range' first (stop - first))
    let name ← metadata.string .methodDef row 3
    let flags ← metadata.tables.value .methodDef row 2
    return ({
      token, name, declaringType, returnType, parameters, genericParameters
      flags := flags % UInt16.size } : MethodDefinition)
  return { m with methods := methods.toArray }

/-- Makes a type the owner of the members in the rows that it lists. -/
def ownListed (owners : Array Token) (listed : Token × List Nat) : Array Token :=
  listed.2.foldl
    (fun owners row => if row = 0 then owners else owners.setIfInBounds (row - 1) listed.1) owners

/-- The owner of each of `count` members, where a map table says which rows belong to which
type; the last row to list a member owns it. -/
def ownersFromMap (metadata : ImageMetadata) (map target pointers : TableId) :
    Except Error (Array Token) := do
  let lists ← (metadata.rows map).mapM fun row => do
    let type ← metadata.tables.value map row 0
    let members ← metadata.listedRows map row 1 target pointers
    return (TableId.typeDef.token type, members)
  return lists.foldl ownListed (Array.replicate (metadata.tables.rows target) Token.zero)

/-- The type and the parameters of a property; without a signature it has none. -/
def propertyTypes (metadata : ImageMetadata) (scope : TypeScope) (names : GenericNames)
    (row : Nat) : Except Error (TypeExpr × List TypeExpr) := do
  match ← Error.attempt ((metadata.blob .property row 2).bind Signature.property.parse) with
  | none => return (.object, [])
  | some signature =>
      let type ← scope.signatureOrObject names (.ok signature.type)
      let parameters ← signature.parameters.mapM fun type =>
        scope.signatureOrObject names (.ok type)
      return (type, parameters)

def addProperties (metadata : ImageMetadata) (scope : TypeScope) (m : CodeModule) :
    Except Error CodeModule := do
  let owners ← metadata.ownersFromMap .propertyMap .property .propertyPtr
  let properties ← (metadata.rows .property).mapM fun row => do
    let declaringType ← ownerOf owners row
    let names : GenericNames := { ofType := typeGenerics m declaringType }
    let (type, parameters) ← metadata.propertyTypes scope names row
    let name ← metadata.string .property row 1
    let flags ← metadata.tables.value .property row 0
    return ({
      token := TableId.property.token row
      name, declaringType, type, parameters
      flags := flags % UInt16.size } : PropertyDefinition)
  let types := m.types.mapIdx fun index type =>
    { type with
      properties := (properties.filter (·.declaringType.row == index + 1)).map (·.token) }
  return { m with properties := properties.toArray, types := types }

def addEvents (metadata : ImageMetadata) (scope : TypeScope) (m : CodeModule) :
    Except Error CodeModule := do
  let owners ← metadata.ownersFromMap .eventMap .event .eventPtr
  let events ← (metadata.rows .event).mapM fun row => do
    let declaringType ← ownerOf owners row
    let handler ← metadata.tables.coded .event row 2 .typeDefOrRef
    let type ← if handler.isNull then pure .object else scope.tokenOrObject {} handler
    let name ← metadata.string .event row 1
    let flags ← metadata.tables.value .event row 0
    return ({
      token := TableId.event.token row
      name, declaringType, type
      flags := flags % UInt16.size } : EventDefinition)
  let types := m.types.mapIdx fun index type =>
    { type with events := (events.filter (·.declaringType.row == index + 1)).map (·.token) }
  return { m with events := events.toArray, types := types }

/-- Makes a method the getter or the setter of a property. -/
def linkProperty (method : Token) (role : AccessorRole) (property : PropertyDefinition) :
    PropertyDefinition :=
  match role with
  | .getter => { property with getter := some method }
  | .setter => { property with setter := some method }
  | _ => property

/-- Makes a method the adder, the remover or the raiser of an event. -/
def linkEvent (method : Token) (role : AccessorRole) (event : EventDefinition) : EventDefinition :=
  match role with
  | .adder => { event with adder := some method }
  | .remover => { event with remover := some method }
  | .raiser => { event with raiser := some method }
  | _ => event

/-- Gives a method its role, and the property or event that it belongs to the method. -/
def linkAccessor (m : CodeModule) (method : Token) (role : AccessorRole) (owner : Token) :
    CodeModule :=
  if method.row = 0 ∨ m.methods.size < method.row then m
  else
    let m := { m with
      methods := m.methods.modify (method.row - 1) fun d => { d with role := some role } }
    if owner.row = 0 then m
    else if owner.table = TableId.property.number then
      { m with properties := m.properties.modify (owner.row - 1) (linkProperty method role) }
    else { m with events := m.events.modify (owner.row - 1) (linkEvent method role) }

def addAccessors (metadata : ImageMetadata) (m : CodeModule) : Except Error CodeModule :=
  (metadata.rows .methodSemantics).foldlM
    (fun m row => do
      let bits ← metadata.tables.value .methodSemantics row 0
      match AccessorRole.ofBits? (bits % UInt16.size) with
      | none => return m
      | some role =>
          let method := TableId.methodDef.token (← metadata.tables.value .methodSemantics row 1)
          let owner ← metadata.tables.coded .methodSemantics row 2 .hasSemantics
          return linkAccessor m method role owner)
    m

/-- Reads the values of literal fields; a value that cannot be decoded is left out. -/
def addConstants (metadata : ImageMetadata) (m : CodeModule) : Except Error CodeModule :=
  (metadata.rows .constant).foldlM
    (fun m row => do
      let parent ← metadata.tables.coded .constant row 1 .hasConstant
      if parent.table ≠ TableId.field.number then return m
      let elementType ← metadata.tables.value .constant row 0
      let blob ← metadata.blob .constant row 2
      match ← Error.attempt (decodeConstant (elementType % 256) blob) with
      | none => return m
      | some value =>
          if parent.row = 0 then return m
          return { m with
            fields := m.fields.modify (parent.row - 1) fun f => { f with constant := some value } })
    m

/-- Reads the name and the identifier of the module; a name that is given wins. -/
def moduleHead (metadata : ImageMetadata) (name : String) :
    Except Error (String × Option Guid) := do
  if metadata.tables.rows .module = 0 then return (name, none)
  let ownName ← metadata.string .module 1 1
  let mvid ← Heap.guid metadata.guids (← metadata.tables.value .module 1 2)
  return (if name.isEmpty then ownName else name, mvid)

/-- Reads the module; an empty name is replaced by the one that the module gives itself. -/
def toModule (metadata : ImageMetadata) (name : String) : Except Error CodeModule := do
  let (name, mvid) ← metadata.moduleHead name
  let assembly ← metadata.assembly?
  let references := (← (metadata.rows .assemblyRef).mapM metadata.reference).toArray
  let resources ← (metadata.rows .manifestResource).mapM (metadata.resource references)
  let typeReferences ← metadata.typeReferences references
  let types ← metadata.typeSkeletons
  let m : CodeModule :=
    { name, mvid, assembly, references, types
      runtimeVersion := metadata.runtimeVersion
      entryPoint := metadata.entryPoint
      resources := resources.toArray }
  let constructed ← (metadata.rows .typeSpec).mapM fun row => metadata.blob .typeSpec row 0
  let scope : TypeScope :=
    { definitions := types.map fun type => (m.typeName? type.token).getD {}
      references := typeReferences
      constructed := constructed.toArray }
  let m ← metadata.addHierarchy scope m
  let m ← metadata.addFields scope m
  let m ← metadata.addMethods scope m
  let m ← metadata.addProperties scope m
  let m ← metadata.addEvents scope m
  let m ← metadata.addAccessors m
  metadata.addConstants m

end ImageMetadata

namespace CodeModule

def ofImage (image : Image) (name : String) : Except Error CodeModule := do
  (← ImageMetadata.ofImage image).toModule name

def ofBytes (name : String) (data : Bytes) : Except Error CodeModule := do
  ofImage (← Image.decode data) name

end CodeModule
end AssemblyBrowser
