import AssemblyBrowser.Browse.Children
import AssemblyBrowser.Listing.Basic

/-!
# Texts

The text of a node. Assemblies, types and members are rendered; most other nodes
have a comment of a few lines that says what they are.
-/

namespace AssemblyBrowser

def commentLine (text : String) : String := "// " ++ text ++ "\n"

namespace ManifestResource

def remark (resource : ManifestResource) : String :=
  let location :=
    match resource.location with
    | .embedded => "Embedded"
    | .file name => "Linked to " ++ name
    | .assembly name => "Forwarded to " ++ name
  let visibility := if resource.isPublic then "Public" else "Private"
  let size :=
    match resource.length with
    | some length => ", " ++ toString length ++ " bytes"
    | none => ""
  resource.name ++ " (" ++ location ++ ", " ++ visibility ++ size ++ ")"

end ManifestResource

namespace Container

def compressionText : Compression → String
  | .stored => "Stored"
  | .deflate => "Deflate"
  | .unsupported method => "Method " ++ toString method

def entryRemark (entry : ContainerEntry) : String :=
  let size :=
    match entry.length with
    | some length => ", " ++ toString length ++ " bytes"
    | none => ""
  entry.path ++ " (Resource, " ++ compressionText entry.compression ++ size ++ ")"

def remarks (container : Container) : List String :=
  let name := (Path.fileName? container.archivePath).getD container.archivePath
  let metadata := container.metadata.getD {}
  let field := fun (label : String) (value : Option String) =>
    value.toList.map fun value => label ++ ": " ++ value
  (name ++ " (" ++ container.format.name ++ ")")
    :: field "Id" metadata.id
    ++ field "Version" metadata.version
    ++ field "Authors" metadata.authors
    ++ field "Description" metadata.description
    ++ field "Bundle" container.bundleId
    ++ ["Entries: " ++ toString container.entries.length ++ " ("
          ++ toString container.moduleEntries.length ++ " modules)"]

def folderRemark (folder : Folder) : String :=
  folder.path ++ " (" ++ toString folder.folders.length ++ " folders, "
    ++ toString folder.entries.length ++ " entries)"

end Container

/-- The text of a namespace; it needs no archive. -/
def namespaceText (dialect : Dialect) (name : String) : String :=
  "namespace " ++ namespaceLabel name ++ (if dialect.isIl then "" else " \x7b \x7d")

namespace Store

/-- The text of a resource of a module, or of an entry when the token is zero. -/
def resourceText (store : Store) (source : ArchiveSource) (address : NodeAddress) :
    Except Error String := do
  let unknown := Error.unknownNode ("Resource " ++ address.displayKey)
  if address.symbolToken ≠ Token.zero then
    let place ← store.placeOf source address
    match place.code.resources.toList.find? (·.token == address.symbolToken) with
    | some resource => return commentLine resource.remark
    | none => throw unknown
  else
    match (← store.archiveOf source address.archivePath).container? with
    | none => throw unknown
    | some container =>
        match address.containerPath.bind container.entry? with
        | some entry => return commentLine (Container.entryRemark entry)
        | none => throw unknown

def groupText (store : Store) (source : ArchiveSource) (address : NodeAddress) (label : String) :
    Except Error String := do
  let subject ← store.subjectOf source address
  return commentLine (label ++ " " ++ subject.place.code.fullName subject.definition.token)

def text (store : Store) (source : ArchiveSource) (renderer : Renderer) (dialect : Dialect)
    (address : NodeAddress) : Except Error String := do
  match address.kind with
  | .assembly =>
      let place ← store.placeOf source address
      renderer.assembly dialect place.displayPath place.code
  | .package =>
      let container ← store.containerOf source address
      return String.join (container.remarks.map commentLine)
  | .packageFolder =>
      let container ← store.containerOf source address
      return commentLine (Container.folderRemark (← container.folderOf address))
  | .resource => store.resourceText source address
  | .referencesRoot =>
      let place ← store.placeOf source address
      return commentLine
        ("References of " ++ place.code.name ++ " (" ++ toString place.code.references.size ++ ")")
  | .archiveReference =>
      let place ← store.placeOf source address
      match place.code.reference? address.symbolToken with
      | some reference => return commentLine reference.identity.text
      | none => throw (unknownToken address)
  | .namespaceNode => return namespaceText dialect address.displayKey
  | .classType | .interfaceType | .structType | .enumType | .delegateType =>
      let place ← store.placeOf source address
      renderer.type dialect place.code address.symbolToken
  | .method | .field | .property | .event | .constant =>
      let place ← store.placeOf source address
      renderer.member dialect place.code address.symbolToken
  | .baseTypesGroup => store.groupText source address "Base Types of"
  | .derivedTypesGroup => store.groupText source address "Derived Types of"
  | .analyzerGroup => store.groupText source address "Usages of"
  | .analyzerResult =>
      let place ← store.placeOf source address
      match ← entityOf place address with
      | .type _ => renderer.type dialect place.code address.symbolToken
      | _ => renderer.member dialect place.code address.symbolToken

end Store
end AssemblyBrowser
