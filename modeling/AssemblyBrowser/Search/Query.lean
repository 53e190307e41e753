import AssemblyBrowser.Error
import AssemblyBrowser.FileSystem.Path
import AssemblyBrowser.Module.TypeName
import AssemblyBrowser.Pattern.Parser
import AssemblyBrowser.Unicode.Case

/-!
# Queries

A keyword of a search says how a name has to relate to a text. Letter case never
counts.

A query is a list of terms: keywords, a pattern between slashes, and prefixes
that choose what is searched and where.
-/

namespace AssemblyBrowser

/-!
## Keywords
-/

/-- How a name has to relate to the text of a keyword. -/
inductive KeywordKind where
  | contains
  | required
  | excluded
  | exact
  | subsequence
  deriving DecidableEq, Repr

/-- A condition on names. -/
structure Keyword where
  kind : KeywordKind
  text : String
  deriving DecidableEq

namespace KeywordKind

def name : KeywordKind → String
  | contains => "Contains"
  | required => "Required"
  | excluded => "Excluded"
  | exact => "Exact"
  | subsequence => "Subsequence"

/-- The kind that a mark in front of a term asks for. -/
def ofMark? : Char → Option KeywordKind
  | '+' => some required
  | '-' => some excluded
  | '=' => some exact
  | '~' => some subsequence
  | _ => none

end KeywordKind

/-- Whether the first text occurs in the second without gaps. -/
def occursIn (wanted : List Char) : List Char → Bool
  | [] => wanted.isEmpty
  | c :: rest => wanted.isPrefixOf (c :: rest) || occursIn wanted rest

/-- Whether the first text occurs in the second, with or without gaps; the second is searched for
one character after the other. -/
def isScattered : (wanted : List Char) → List Char → Bool
  | [], _ => true
  | _ :: _, [] => false
  | w :: wanted, c :: rest =>
      if w = c then isScattered wanted rest else isScattered (w :: wanted) rest

namespace Keyword

/-- The keyword of a term. A mark that stands alone is a text itself. -/
def parse (term : String) : Keyword :=
  match term.toList with
  | mark :: c :: rest =>
      match KeywordKind.ofMark? mark with
      | some kind => { kind, text := String.ofList (c :: rest) }
      | none => { kind := .contains, text := term }
  | _ => { kind := .contains, text := term }

def accepts (keyword : Keyword) (name : String) : Bool :=
  let name := Unicode.lowerChars name.toList
  let text := Unicode.lowerChars keyword.text.toList
  match keyword.kind with
  | .contains => occursIn text name
  | .required => occursIn text name
  | .excluded => !occursIn text name
  | .exact => stripArityChars name == stripArityChars text
  | .subsequence => isScattered text name

end Keyword

/-!
## Terms and requests
-/

/-- Which text of an archive is searched. -/
inductive ArchiveText where
  | nameOrFileName
  | filePath
  | fullName
  deriving DecidableEq, Repr

def ArchiveText.name : ArchiveText → String
  | nameOrFileName => "NameOrFileName"
  | filePath => "FilePath"
  | fullName => "FullName"

/-- What is searched. -/
inductive SearchMode where
  | typeAndMember
  | type
  | member
  | method
  | field
  | property
  | event
  | namespaceMode
  | archive (text : ArchiveText)
  | literal
  | resource
  | token
  deriving DecidableEq, Repr

namespace SearchMode

def name : SearchMode → String
  | typeAndMember => "TypeAndMember"
  | type => "Type"
  | member => "Member"
  | method => "Method"
  | field => "Field"
  | property => "Property"
  | event => "Event"
  | namespaceMode => "Namespace"
  | archive text => "Archive(" ++ text.name ++ ")"
  | literal => "Literal"
  | resource => "Resource"
  | token => "Token"

def ofPrefix? : String → Option SearchMode
  | "tm" => some typeAndMember
  | "t" => some type
  | "m" => some member
  | "md" => some method
  | "f" => some field
  | "p" => some property
  | "e" => some event
  | "n" => some namespaceMode
  | "a" => some (archive .nameOrFileName)
  | "af" => some (archive .filePath)
  | "an" => some (archive .fullName)
  | "c" => some literal
  | "r" => some resource
  | _ => none

end SearchMode

/-- A pattern with the text it was read from. -/
structure SourcePattern where
  source : String
  pattern : Pattern

/-- What a search is for. -/
structure SearchRequest where
  mode : SearchMode := .typeAndMember
  keywords : List Keyword := []
  pattern : Option SourcePattern := none
  inNamespace : Option String := none
  inArchive : Option String := none

namespace SearchRequest

/-- The terms of a query. `hasTerm` holds once the term has begun with a quote, and `current` has
its characters in reverse. Blanks separate terms outside quotes; inside, a backslash in front of
a quote makes it a character. -/
def splitTermsFrom : (quoted hasTerm : Bool) → (current : List Char) → List Char → List (List Char)
  | _, hasTerm, current, [] => if hasTerm || !current.isEmpty then [current.reverse] else []
  | true, hasTerm, current, '\\' :: '"' :: rest =>
      splitTermsFrom true hasTerm ('"' :: current) rest
  | quoted, hasTerm, current, c :: rest =>
      if c = '"' then splitTermsFrom (!quoted) true current rest
      else if !quoted && Blank.isBlank c then
        if hasTerm || !current.isEmpty then current.reverse :: splitTermsFrom false false [] rest
        else splitTermsFrom false false [] rest
      else splitTermsFrom quoted hasTerm (c :: current) rest

def splitTerms (query : String) : List String :=
  (splitTermsFrom false false [] query.toList).map String.ofList

/-- What stands in front of the first colon and behind it. -/
def splitColon? (term : String) : Option (String × String) :=
  let chars := term.toList
  match chars.dropWhile (· != ':') with
  | [] => none
  | _ :: rest => some (String.ofList (chars.takeWhile (· != ':')), String.ofList rest)

def addKeyword (request : SearchRequest) (term : String) : SearchRequest :=
  if term.isEmpty then request
  else { request with keywords := request.keywords ++ [Keyword.parse term] }

def slashed? (body : String) : Option String :=
  match body.toList with
  | '/' :: rest => if rest.getLast? = some '/' then some (String.ofList rest.dropLast) else none
  | _ => none

/-- Adds what follows a prefix: a pattern, a token or a keyword. Only the first pattern counts. -/
def addBody (request : SearchRequest) (source : Option String) (body : String) :
    SearchRequest × Option String :=
  match slashed? body with
  | some pattern => (request, some (source.getD pattern))
  | none =>
      match body.toList with
      | '@' :: token => ({ request with mode := .token }.addKeyword (String.ofList token), source)
      | _ => (request.addKeyword body, source)

def addTerm (request : SearchRequest) (source : Option String) (term : String) :
    SearchRequest × Option String :=
  match splitColon? term with
  | none => request.addBody source term
  | some (start, rest) =>
      let start := String.ofList (Path.asciiFold start)
      match SearchMode.ofPrefix? start with
      | some mode => { request with mode := mode }.addBody source rest
      | none =>
          if start = "innamespace" then ({ request with inNamespace := some rest }, source)
          else if start = "inassembly" ∨ start = "inarchive" then
            ({ request with inArchive := some rest }, source)
          else request.addBody source term

def parse (query : String) : Except Error SearchRequest :=
  let (request, source) := (splitTerms query).foldl
    (fun (request, source) term => request.addTerm source term)
    (({} : SearchRequest), (none : Option String))
  match source with
  | none => .ok request
  | some source =>
      match Pattern.parse? source with
      | some pattern => .ok { request with pattern := some { source, pattern } }
      | none => .error .invalidPattern

def isEmpty (request : SearchRequest) : Bool := request.keywords.isEmpty && request.pattern.isNone

/-- The texts of the keywords and of the pattern. -/
def texts (request : SearchRequest) : List String :=
  request.keywords.map Keyword.text ++ request.pattern.toList.map SourcePattern.source

/-- Whether full names are compared: a keyword has a dot, or the pattern one behind a backslash. -/
def matchesFullNames (request : SearchRequest) : Bool :=
  request.keywords.any (·.text.contains '.')
    || request.pattern.any fun pattern => occursIn ['\\', '.'] pattern.source.toList

/-- Whether generic parameters are left out of names: no text asks for them. -/
def omitsGenerics (request : SearchRequest) : Bool :=
  !request.texts.any fun text => text.contains '<' || text.contains arityMark

/-- Whether a text satisfies all keywords and the pattern. -/
def acceptsText (request : SearchRequest) (text : String) : Bool :=
  request.keywords.all (·.accepts text)
    && request.pattern.all fun pattern => pattern.pattern.occursIn text

/-- Whether a name satisfies all keywords and the pattern. -/
def accepts (request : SearchRequest) (name : String) : Bool :=
  request.acceptsText (if request.omitsGenerics then stripArities name else name)

/-- Whether one of the names satisfies all keywords and the pattern. -/
def acceptsAny (request : SearchRequest) (names : List String) : Bool :=
  names.any request.accepts

end SearchRequest
end AssemblyBrowser
