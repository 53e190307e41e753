import AssemblyBrowser.Module.Basic

/-!
# Building modules

A module can be described step by step. Tokens are handed out in sequence for
each table, and row 1 of the types is the pseudo type that every module has.
-/

namespace AssemblyBrowser

/-- One step in the description of a module. -/
inductive BuildStep where
  | assembly (name : String) (version : Version)
  | runtime (version : String)
  | type (namespaceName name : String) (kind : TypeKind) (flags : Nat)
  | nestedType (outer : Token) (name : String) (kind : TypeKind) (flags : Nat)
  | base (type : Token) (base : Option TypeExpr)
  | interface (type : Token) (interface : TypeExpr)
  | genericParameters (type : Token) (names : List String)
  | method (type : Token) (name : String) (flags : Nat) (returnType : TypeExpr)
      (parameters : List Parameter)
  | field (type : Token) (name : String) (flags : Nat) (fieldType : TypeExpr)
  | constant (type : Token) (name : String) (fieldType : TypeExpr) (value : Constant)
  | property (type : Token) (name : String) (propertyType : TypeExpr)
      (getter setter : Option Token)
  | event (type : Token) (name : String) (eventType : TypeExpr) (adder remover : Option Token)
  | reference (identity : AssemblyIdentity)
  | resource (name : String) (length : Nat) (isPublic : Bool)
  | entryPoint (method : Token)

namespace CodeModule

def initial (name : String) : CodeModule :=
  { name := name
    runtimeVersion := "v4.0.30319"
    types := #[{
      token := TableId.typeDef.token 1
      namespaceName := ""
      name := modulePseudoType
      flags := 0 }] }

def modifyType (m : CodeModule) (token : Token) (change : TypeDefinition → TypeDefinition) :
    CodeModule :=
  if token.row = 0 then m else { m with types := m.types.modify (token.row - 1) change }

def modifyMethod (m : CodeModule) (token : Token)
    (change : MethodDefinition → MethodDefinition) : CodeModule :=
  if token.row = 0 then m else { m with methods := m.methods.modify (token.row - 1) change }

/-- The type in the row of a token, whatever its table. -/
def typeAtRow? (m : CodeModule) (token : Token) : Option TypeDefinition :=
  if token.row = 0 then none else m.types[token.row - 1]?

/-- The flags and the base type that a kind brings along. -/
def kindDefaults (kind : TypeKind) (flags : Nat) : Nat × Option TypeExpr :=
  let sealedFlags := flags ||| Nat.pow 2 TypeFlag.sealedBit
  match kind with
  | .classType => (flags, some (.ofName "System" "Object"))
  | .interfaceType =>
      (flags ||| Nat.pow 2 TypeFlag.interfaceBit ||| Nat.pow 2 TypeFlag.abstractBit, none)
  | .structType => (sealedFlags, some (.ofName "System" "ValueType"))
  | .enumType => (sealedFlags, some (.ofName "System" "Enum"))
  | .delegateType => (sealedFlags, some (.ofName "System" "MulticastDelegate"))

def pushType (m : CodeModule) (namespaceName name : String) (kind : TypeKind) (flags : Nat)
    (declaringType : Option Token) : CodeModule × Token :=
  let token := TableId.typeDef.token (m.types.size + 1)
  let (flags, base) := kindDefaults kind flags
  let type : TypeDefinition := { token, namespaceName, name, flags, kind, base, declaringType }
  ({ m with types := m.types.push type }, token)

def pushField (m : CodeModule) (type : Token) (name : String) (flags : Nat) (fieldType : TypeExpr)
    (constant : Option Constant) : CodeModule × Token :=
  let token := TableId.field.token (m.fields.size + 1)
  let field : FieldDefinition :=
    { token, name, flags, declaringType := type, type := fieldType, constant }
  let m := { m with fields := m.fields.push field }
  (m.modifyType type fun t => { t with fields := t.fields ++ [token] }, token)

def markAccessor (m : CodeModule) (method : Option Token) (role : AccessorRole) : CodeModule :=
  match method with
  | none => m
  | some token => m.modifyMethod token fun definition => { definition with role := some role }

def publicConstantFlags : Nat := 0x8056

/-- Carries out a step; steps that add a row answer its token. -/
def build (m : CodeModule) : BuildStep → CodeModule × Option Token
  | .assembly name version => ({ m with assembly := some { name, version } }, none)
  | .runtime version => ({ m with runtimeVersion := version }, none)
  | .type namespaceName name kind flags =>
      let (m, token) := m.pushType namespaceName name kind flags none
      (m, some token)
  | .nestedType outer name kind flags =>
      let namespaceName := ((m.typeAtRow? outer).map TypeDefinition.namespaceName).getD ""
      let (m, token) := m.pushType namespaceName name kind flags (some outer)
      (m.modifyType outer fun t => { t with nestedTypes := t.nestedTypes ++ [token] }, some token)
  | .base type base => (m.modifyType type fun t => { t with base := base }, none)
  | .interface type interface =>
      (m.modifyType type fun t => { t with interfaces := t.interfaces ++ [interface] }, none)
  | .genericParameters type names =>
      (m.modifyType type fun t =>
        { t with
          genericParameters := names
          name :=
            if names.isEmpty ∨ t.name.contains arityMark then t.name
            else t.name ++ "`" ++ toString names.length }, none)
  | .method type name flags returnType parameters =>
      let token := TableId.methodDef.token (m.methods.size + 1)
      let m := { m with
        methods := m.methods.push
          { token, name, flags, declaringType := type, returnType, parameters } }
      (m.modifyType type fun t => { t with methods := t.methods ++ [token] }, some token)
  | .field type name flags fieldType =>
      let (m, token) := m.pushField type name flags fieldType none
      (m, some token)
  | .constant type name fieldType value =>
      let (m, token) := m.pushField type name publicConstantFlags fieldType (some value)
      (m, some token)
  | .property type name propertyType getter setter =>
      let token := TableId.property.token (m.properties.size + 1)
      let m := { m with
        properties := m.properties.push
          { token, name, declaringType := type, type := propertyType, getter, setter } }
      let m := (m.markAccessor getter .getter).markAccessor setter .setter
      (m.modifyType type fun t => { t with properties := t.properties ++ [token] }, some token)
  | .event type name eventType adder remover =>
      let token := TableId.event.token (m.events.size + 1)
      let m := { m with
        events := m.events.push
          { token, name, declaringType := type, type := eventType, adder, remover } }
      let m := (m.markAccessor adder .adder).markAccessor remover .remover
      (m.modifyType type fun t => { t with events := t.events ++ [token] }, some token)
  | .reference identity =>
      let token := TableId.assemblyRef.token (m.references.size + 1)
      ({ m with references := m.references.push { token, identity } }, some token)
  | .resource name length isPublic =>
      let token := TableId.manifestResource.token (m.resources.size + 1)
      let resource : ManifestResource :=
        { token, name, isPublic, length := some length, location := .embedded }
      ({ m with resources := m.resources.push resource }, some token)
  | .entryPoint method => ({ m with entryPoint := some method }, none)

/-- Carries out steps in order; the answers come along. -/
def buildAll (m : CodeModule) : List BuildStep → CodeModule × List (Option Token)
  | [] => (m, [])
  | step :: steps =>
      let (m, token) := m.build step
      let (m, tokens) := m.buildAll steps
      (m, token :: tokens)

/-- The module of that name which the steps describe. -/
def ofSteps (name : String) (steps : List BuildStep) : CodeModule × List (Option Token) :=
  (initial name).buildAll steps

end CodeModule
end AssemblyBrowser
