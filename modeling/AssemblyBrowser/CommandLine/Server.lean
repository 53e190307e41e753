import AssemblyBrowser.Navigator.Basic
import AssemblyBrowser.Tree.NodeJson

/-!
# The line server

Requests and responses are JSON objects, one on each line. A request names a
method and gives its parameters; its response has the same id and either a result
or an error.
-/

namespace AssemblyBrowser.Server

/-- A request. -/
structure Request where
  id : Json
  method : String
  params : Json

namespace Request

def fieldNames : List String := ["id", "method", "params"]

/-- Reads a request; no field may be given twice, and only the method must be given. -/
def ofJson? (json : Json) : Option Request :=
  if Json.repeatsAny fieldNames json then none
  else
    match json.fields? fieldNames with
    | some [id, method, params] => do
        let method ← Json.required? Json.text? method
        return { id := id.getD .null, method, params := params.getD .null }
    | _ => none

end Request

/-- Why there is no result. -/
inductive Fault where
  | unreadable
  | invalidParams
  | unknownMethod (name : String)
  deriving DecidableEq

namespace Fault

def message : Fault → String
  | unreadable => "parse error"
  | invalidParams => "invalid params"
  | unknownMethod name => "unknown method: " ++ name

end Fault

/-- The line of a response. Members inside the id and the result are in order of their names. -/
def responseLine (id : Json) (answer : Except Fault Json) : String :=
  Json.compact <| .object <| ("id", id.sorted) ::
    match answer with
    | .ok result => [("result", result.sorted)]
    | .error fault => [("error", .text fault.message)]

/-- The fields of parameters; none at all count as an object without members. -/
def paramFields (names : List String) (params : Json) : Except Fault (List (Option Json)) :=
  let params := if params == .null then .object [] else params
  match params.fields? names with
  | some fields => .ok fields
  | none => .error .invalidParams

/-- A field that has to be there and to be readable. -/
def field {α : Type} (read : Json → Option α) (value : Option Json) : Except Fault α :=
  match Json.required? read value with
  | some value => .ok value
  | none => .error .invalidParams

def fieldOr {α : Type} (read : Json → Option α) (missing : α) (value : Option Json) :
    Except Fault α :=
  match Json.orDefault? read missing value with
  | some value => .ok value
  | none => .error .invalidParams

def onlyField {α : Type} (name : String) (read : Json → Option α) (params : Json) :
    Except Fault α := do
  field read ((← paramFields [name] params).head?.join)

def optionalAddress? : Json → Option (Option NodeAddress)
  | .null => some none
  | json => (NodeAddress.ofJson? json).map some

def dialect? : Json → Option Dialect := Json.choice? Dialect.ofName?

def textParams (params : Json) : Except Fault (NodeAddress × Dialect) := do
  match ← paramFields ["address", "dialect"] params with
  | [address, dialect] =>
      return (← field NodeAddress.ofJson? address, ← fieldOr dialect? Dialect.standard dialect)
  | _ => throw .invalidParams

def exportParams (params : Json) : Except Fault ExportRequest := do
  match ← paramFields ["address", "dialect", "outputDirectory", "includeCompilerGenerated"]
      params with
  | [address, dialect, output, generated] =>
      return {
        address := ← field NodeAddress.ofJson? address
        dialect := ← fieldOr dialect? Dialect.standard dialect
        outputDirectory := ← field Json.text? output
        includeGenerated := ← fieldOr Json.boolean? false generated }
  | _ => throw .invalidParams

def childrenParams (params : Json) : Except Fault (Option NodeAddress) := do
  fieldOr optionalAddress? none ((← paramFields ["address"] params).head?.join)

def nodesJson (nodes : List Node) : Json := .array (nodes.map Node.toJson)

/-- The answer to a method. No request is under way when the next one is read, so there is never
one to cancel. -/
def answer (navigator : Navigator) (method : String) (params : Json) :
    Except Fault (Navigator × Json) := do
  match method with
  | "addArchive" =>
      let (navigator, outcome) := navigator.addArchive (← onlyField "path" Json.text? params)
      return (navigator, outcome.toJson)
  | "removeArchive" =>
      let (navigator, removed) := navigator.removeArchive (← onlyField "path" Json.text? params)
      return (navigator, .object [("removed", .boolean removed)])
  | "getChildren" =>
      let (navigator, nodes) := navigator.children (← childrenParams params)
      return (navigator, nodesJson nodes)
  | "getText" =>
      let (address, dialect) ← textParams params
      return (navigator, (navigator.text dialect address).toJson)
  | "search" =>
      let found := navigator.search (← onlyField "query" Json.text? params)
      return (navigator, nodesJson (found.map SearchMatch.node))
  | "exportArchive" =>
      let (navigator, outcome) := navigator.exportAssembly (← exportParams params)
      return (navigator, outcome.toJson)
  | "listArchives" =>
      return (navigator, .array (navigator.archives.map ArchiveSummary.toJson))
  | "restoreSession" =>
      let (navigator, count) := navigator.restoreSession
      return (navigator, .ofNat count)
  | "cancelRequest" =>
      let _ ← onlyField "id" some params
      return (navigator, .object [("cancelled", .boolean false)])
  | _ => throw (.unknownMethod method)

/-- The files and directories that a line asks for, in whatever place its parameters have them. -/
def pathsIn (line : String) : List String :=
  match (Json.parse? line).bind Request.ofJson? with
  | some request =>
      match request.params with
      | .array values => values.filterMap Json.text?
      | params =>
          (["path", "outputDirectory"].filterMap params.field?).filterMap Json.text?
  | none => []

/-- What follows from a line. -/
structure Reply where
  navigator : Navigator
  /-- The line of the response; a blank line has none. -/
  line : Option String
  /-- Whether no more lines are read. -/
  stops : Bool := false

def reply (navigator : Navigator) (line : String) : Reply :=
  if (Blank.trim line).isEmpty then { navigator, line := none }
  else
    match (Json.parse? line).bind Request.ofJson? with
    | none => { navigator, line := some (responseLine .null (.error .unreadable)) }
    | some request =>
        if request.method = "shutdown" then
          { navigator, line := some (responseLine request.id (.ok (.object []))), stops := true }
        else
          match answer navigator request.method request.params with
          | .ok (changed, result) =>
              { navigator := changed, line := some (responseLine request.id (.ok result)) }
          | .error fault =>
              { navigator, line := some (responseLine request.id (.error fault)) }

/-- Answers lines in order until one of them stops the server. -/
def replies (navigator : Navigator) : List String → Navigator × List String
  | [] => (navigator, [])
  | line :: rest =>
      let reply := reply navigator line
      if reply.stops then (reply.navigator, reply.line.toList)
      else
        let (navigator, lines) := replies reply.navigator rest
        (navigator, reply.line.toList ++ lines)

end AssemblyBrowser.Server
