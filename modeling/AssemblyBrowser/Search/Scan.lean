import AssemblyBrowser.Browse.Children
import AssemblyBrowser.Browse.Module
import AssemblyBrowser.Search.Match
import AssemblyBrowser.Search.Query
import AssemblyBrowser.Text.Numeral

/-!
# Searching archives

A search goes through the archives one by one. Each gives its matches; the
matches of all of them are sorted.
-/

namespace AssemblyBrowser

namespace CodeModule

/-- How many types around a type are looked through for its namespace. -/
def maxNesting : Nat := 64

/-- The namespace of the outermost type around a type. -/
def outermostNamespace (m : CodeModule) (type : TypeDefinition) : String :=
  ((m.enclosingChain maxNesting type.declaringType).getLast?.getD type).namespaceName

end CodeModule

namespace SearchMode

def wantsTypes : SearchMode → Bool
  | typeAndMember => true
  | type => true
  | _ => false

/-- Whether members of a kind are searched for; a type inside a type is none of its members. -/
def wantsMember (mode : SearchMode) (kind : NodeKind) : Bool :=
  match mode with
  | typeAndMember => kind.isMember
  | member => kind.isMember
  | method => kind == .method
  | field => kind == .field || kind == .constant
  | property => kind == .property
  | event => kind == .event
  | _ => false

end SearchMode

namespace SearchRequest

/-- Whether a namespace is searched; it goes by its name or by its label. -/
def coversNamespace (request : SearchRequest) (name : String) : Bool :=
  request.inNamespace.all fun wanted =>
    Path.sameIgnoringCase name wanted || Path.sameIgnoringCase (namespaceLabel name) wanted

/-- Whether an archive, or a module of it, is searched. -/
def coversArchive (request : SearchRequest) (archive : LoadedArchive)
    (code : Option CodeModule) : Bool :=
  let names := [archive.name, Path.stem archive.name]
    ++ code.toList.flatMap fun code => [code.name, code.assemblyName]
  request.inArchive.all fun wanted => names.any (Path.sameIgnoringCase wanted)

def archiveMatch (request : SearchRequest) (text : ArchiveText) (archive : LoadedArchive) :
    List SearchMatch :=
  let accepted :=
    match text with
    | .nameOrFileName =>
        request.acceptsAny <| archive.name ::
          match archive.handle with
          | some (.codeModule code) => [code.assemblyName]
          | _ => []
    | .filePath => request.acceptsText archive.path
    | .fullName => archive.identity?.any request.acceptsText
  if accepted then [{ node := archive.node, fitness := .ofName archive.name }] else []

/-- The names under which a type is searched for. -/
def typeNames (request : SearchRequest) (code : CodeModule) (type : TypeDefinition) :
    List String :=
  let name := if request.matchesFullNames then code.fullName type.token else type.name
  let start := String.ofList (name.toList.take (name.length - type.name.length))
  if request.omitsGenerics || type.genericParameters.isEmpty then [name]
  else [name, start ++ type.displayName]

def typeMatch (request : SearchRequest) (place : PlacedModule) (type : TypeDefinition) :
    List SearchMatch :=
  if request.mode.wantsTypes && request.acceptsAny (request.typeNames place.code type) then
    [{ node := place.typeNode type, fitness := .ofName type.name }]
  else []

/-- The name under which a member of a type is searched for; a constructor goes by the name of its
type. -/
def memberName (type : TypeDefinition) : Entity → String
  | .method definition => if definition.isConstructor then type.name else definition.name
  | entity => entity.name

def memberMatch (request : SearchRequest) (place : PlacedModule) (type : TypeDefinition)
    (entity : Entity) : List SearchMatch :=
  let name := memberName type entity
  let searched :=
    if request.matchesFullNames then place.code.fullName type.token ++ "." ++ name else name
  if request.mode.wantsMember (.ofEntity entity) && PlacedModule.isShown entity
      && request.accepts searched then
    [{ node := place.entityNode entity, fitness := .ofName name }]
  else []

def memberMatches (request : SearchRequest) (place : PlacedModule) (type : TypeDefinition) :
    List SearchMatch :=
  let tokens := type.fields ++ type.properties ++ type.events ++ type.methods
  (tokens.filterMap place.code.entity?).flatMap (request.memberMatch place type)

/-- Whether a type is searched: it is not the row for what belongs to no type, and its namespace
is covered. -/
def coversType (request : SearchRequest) (code : CodeModule) (type : TypeDefinition) : Bool :=
  !(type.name == modulePseudoType && type.namespaceName.isEmpty)
    && request.coversNamespace (code.outermostNamespace type)

def definitionMatches (request : SearchRequest) (place : PlacedModule) : List SearchMatch :=
  (place.code.types.toList.filter (request.coversType place.code)).flatMap fun type =>
    request.typeMatch place type ++ request.memberMatches place type

def namespaceMatches (request : SearchRequest) (place : PlacedModule) : List SearchMatch :=
  (place.code.namespaces.filter fun name => request.accepts (namespaceLabel name)).map fun name =>
    { node := place.namespaceNode name, fitness := .ofName (namespaceLabel name) }

def token? (request : SearchRequest) : Option Token := do
  let keyword ← request.keywords.head?
  let chars := keyword.text.toList
  (Numeral.unsigned? 16 32 ((Numeral.afterHexMark? chars).getD chars)).map Token.ofNat

def namespaceOf (code : CodeModule) : Entity → String
  | .type definition => code.outermostNamespace definition
  | entity => ((entity.declaringType.bind code.type?).map code.outermostNamespace).getD ""

def tokenMatches (request : SearchRequest) (place : PlacedModule) : List SearchMatch :=
  (request.token?.bind place.code.entity?).toList.flatMap fun entity =>
    if request.coversNamespace (namespaceOf place.code entity) then
      let node := place.entityNode entity
      [{ node, fitness := .ofName node.displayName }]
    else []

/-- The number that the only keyword writes, by its bits. -/
def number? (request : SearchRequest) : Option Nat :=
  match request.keywords with
  | [keyword] =>
      let chars := keyword.text.toList
      match Numeral.afterHexMark? chars with
      | some digits => (Numeral.signed? 16 64 digits).map (Decimal.nearestOfInt Decimal.binary64)
      | none => Numeral.real? chars
  | _ => none

/-- Whether a constant is searched for: it equals the number, or a text satisfies the request. -/
def acceptsConstant (request : SearchRequest) (value : Constant) : Bool :=
  match request.number? with
  | some wanted => value.number?.any (Decimal.sameNumber wanted)
  | none =>
      match value with
      | .text text => request.acceptsText text
      | _ => false

def literalMatches (request : SearchRequest) (place : PlacedModule) : List SearchMatch :=
  let isSearched := fun (field : FieldDefinition) =>
    field.constant.any request.acceptsConstant
      && (place.code.type? field.declaringType).any fun owner =>
        request.coversNamespace (place.code.outermostNamespace owner)
  (place.code.fields.toList.filter isSearched).map fun field =>
    { node := place.entityNode (.field field), fitness := .ofName field.name }

def resourceMatches (request : SearchRequest) (place : PlacedModule) : List SearchMatch :=
  (place.code.resources.toList.filter fun resource => request.acceptsText resource.name).map
    fun resource =>
      { node := (place.resourceNode resource).withDescription place.code.name
        fitness := .ofName resource.name }

/-- The matches among the entries of a container that are no modules. -/
def entryMatches (request : SearchRequest) (archive : LoadedArchive) : List SearchMatch :=
  match archive.container? with
  | none => []
  | some container =>
      let isSearched := fun (entry : ContainerEntry) =>
        entry.kind == .resource
          && request.acceptsText (if request.matchesFullNames then entry.path else entry.name)
      (container.entries.filter isSearched).map fun entry =>
        { node := Container.resourceNode archive.path entry, fitness := .ofName entry.name }

def moduleMatches (request : SearchRequest) (place : PlacedModule) : List SearchMatch :=
  match request.mode with
  | .namespaceMode => request.namespaceMatches place
  | .token => request.tokenMatches place
  | .literal => request.literalMatches place
  | .resource => request.resourceMatches place
  | _ => request.definitionMatches place

def matchesIn (request : SearchRequest) (archive : LoadedArchive) : List SearchMatch :=
  match request.mode with
  | .archive text => request.archiveMatch text archive
  | mode =>
      (if mode == .resource && request.coversArchive archive none then
          request.entryMatches archive
        else [])
        ++ (archive.modules.filter fun place =>
              request.coversArchive archive (some place.code)).flatMap request.moduleMatches

end SearchRequest

namespace Store

/-- The matches in all archives, in order; nothing is found where nothing is asked for. -/
def search (store : Store) (request : SearchRequest) : List SearchMatch :=
  if request.isEmpty then []
  else SearchMatch.sort (store.archives.flatMap request.matchesIn)

end Store
end AssemblyBrowser
