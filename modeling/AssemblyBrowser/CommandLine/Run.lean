import AssemblyBrowser.CommandLine.Invocation
import AssemblyBrowser.Navigator.Basic
import AssemblyBrowser.Text.Blank
import AssemblyBrowser.Tree.NodeJson
import AssemblyBrowser.Unicode.Category

/-!
# Running commands

A table is shown in columns as wide as their widest cell, with two spaces between
them and no lines around them. A cell may have several lines.

A command opens archives, shows what it finds and says whether it failed. A
failure does not undo what was done before it.
-/

namespace AssemblyBrowser.Columns

/-!
## Columns
-/

def cellLines (cell : String) : List String := cell.splitOn "\n"

def cellWidth (cell : String) : Nat := ((cellLines cell).map Unicode.textWidth).foldl max 0

/-- The greater of the numbers at each place; the longer list goes on alone. -/
def maxWidths : List Nat → List Nat → List Nat
  | [], second => second
  | first, [] => first
  | a :: first, b :: second => max a b :: maxWidths first second

def widths (rows : List (List String)) : List Nat :=
  rows.foldl (fun widest row => maxWidths widest (row.map cellWidth)) []

def pad (width : Nat) (text : String) : String :=
  text ++ String.ofList (List.replicate (width - Unicode.textWidth text) ' ')

def trimEnd (line : String) : String :=
  String.ofList (line.toList.reverse.dropWhile Blank.isBlank).reverse

/-- The lines of a row; cells with fewer lines than others are empty in the rest. -/
def rowLines (widths : List Nat) (row : List String) : List String :=
  let cells := row.map cellLines
  let height := (cells.map List.length).foldl max 0
  (List.range height).map fun index =>
    let parts := (widths.zip cells).map fun (width, lines) => pad width (lines[index]?.getD "")
    trimEnd (String.intercalate "  " parts)

def lines (rows : List (List String)) : List String := rows.flatMap (rowLines (widths rows))

end AssemblyBrowser.Columns

/-!
## Commands
-/

namespace AssemblyBrowser.CommandLine

/-- What a command shows, and why it failed in the end if it did. -/
structure Report where
  output : String := ""
  failure : Option String := none

/-- A step of a command, which may end it with a failure. -/
abbrev CommandM := ExceptT String (StateM Navigator)

def navigatorFor (options : GlobalOptions) (files : FileSystem) : Except String Navigator := do
  let settings : NavigatorSettings :=
    { sessionFile := options.session
      searchThreads := options.searchThreads
      resolver := { autoLoad := options.autoLoad } }
  let settings ← options.searchPaths.foldlM
    (fun settings path =>
      (settings.addSearchPath files path).mapError fun error =>
        "invalid search path: " ++ path ++ ": " ++ error.message)
    settings
  return { settings, files }

/-- Opens an archive and gives its canonical path. -/
def openArchive (path : String) : CommandM String := do
  let outcome ← modifyGet fun navigator : Navigator => (navigator.addArchive path).swap
  match outcome.summary with
  | some summary => return summary.archivePath
  | none => throw ("failed to load archive: " ++ path)

def dialectOf (name : String) : CommandM Dialect :=
  match dialect? name with
  | some dialect => return dialect
  | none => throw ("unknown dialect: " ++ name)

def present (options : GlobalOptions) (json : Json) (text : String) : String :=
  if options.json then json.indented ++ "\n" else text

def unlines (lines : List String) : String := String.join (lines.map (· ++ "\n"))

/-- A node with the nodes under it. -/
inductive TreeEntry where
  | entry (node : Node) (children : List TreeEntry)

namespace TreeEntry

mutual
/-- An entry as an object; one without children does not mention them. -/
def toJson : TreeEntry → Json
  | entry node [] => node.toJson
  | entry node (child :: rest) =>
      match node.toJson with
      | .object members =>
          .object (members ++ [("children", .array (toJson child :: toJsonAll rest))])
      | json => json

def toJsonAll : List TreeEntry → List Json
  | [] => []
  | first :: rest => toJson first :: toJsonAll rest
end

mutual
/-- The lines of an entry; a plus marks a node whose children are not shown. -/
def lines (indent : Nat) : TreeEntry → List String
  | entry node children =>
      let mark := if node.mayHaveChildren && children.isEmpty then "+ " else "  "
      let remark :=
        if node.description.isEmpty then ""
        else "  [" ++ node.address.kind.name ++ "] " ++ node.description
      (String.ofList (List.replicate indent ' ') ++ mark ++ node.displayName ++ remark)
        :: linesOfAll (indent + 2) children

def linesOfAll (indent : Nat) : List TreeEntry → List String
  | [] => []
  | first :: rest => lines indent first ++ linesOfAll indent rest
end

/-- Whether a node is a group of answers from all archives, which is shown but not opened. -/
def isGroup : NodeKind → Bool
  | .baseTypesGroup => true
  | .derivedTypesGroup => true
  | .analyzerGroup => true
  | _ => false

/-- A node with the nodes under it, down to a depth. -/
def expand : (depth : Nat) → Node → StateM Navigator TreeEntry
  | 0, node => return entry node []
  | depth + 1, node => do
      if !node.mayHaveChildren || isGroup node.address.kind then return entry node []
      let children ← modifyGet fun navigator : Navigator =>
        (navigator.children (some node.address)).swap
      return entry node (← children.mapM (expand depth))

end TreeEntry

def showTree (options : GlobalOptions) (paths : List String) (depth : Nat) : CommandM Report := do
  for path in paths do
    let _ ← openArchive path
  let roots := (← get).store.roots
  let entries ← ExceptT.lift (roots.mapM (TreeEntry.expand depth))
  let json : Json := .array (TreeEntry.toJsonAll entries)
  return { output := present options json (unlines (TreeEntry.linesOfAll 0 entries)) }

/-- Shows the text of an archive, or of the first match of a query. -/
def showText (options : GlobalOptions) (path : String) (query : Option String) (dialect : String) :
    CommandM Report := do
  let dialect ← dialectOf dialect
  let archivePath ← openArchive path
  let navigator ← get
  let address ←
    match query with
    | none =>
        let root := navigator.store.roots.find? (·.address.archivePath == archivePath)
        pure ((root.map Node.address).getD (.assembly archivePath none))
    | some query =>
        match navigator.search query with
        | found :: _ => pure found.node.address
        | [] => throw ("no match for " ++ Json.quote query ++ " in " ++ path)
  let outcome := navigator.text dialect address
  return {
    output := present options outcome.toJson outcome.text
    failure := if outcome.isError then some "rendering failed" else none }

def matchJson (found : SearchMatch) : Json :=
  .object
    [("name", .text found.name), ("kind", .text found.node.address.kind.name),
      ("location", .text found.location), ("archive", .text found.archivePath),
      ("fitness", .real (UInt64.ofNat found.fitness.bits))]

def matchTable (found : List SearchMatch) : List String :=
  Columns.lines <|
    ["Name", "Kind", "Location", "Archive"] ::
      found.map fun one => [one.name, one.node.address.kind.name, one.location, one.archivePath]

def showMatches (options : GlobalOptions) (query : String) (paths : List String) :
    CommandM Report := do
  for path in paths do
    let _ ← openArchive path
  let found := (← get).search query
  let json : Json :=
    .object [("query", .text query), ("matches", .array (found.map matchJson)),
      ("count", .ofNat found.length)]
  let count := toString found.length ++ " match(es)."
  return { output := present options json (unlines (matchTable found ++ ["", count])) }

def writeSources (options : GlobalOptions) (path output : String) (entry : Option String)
    (dialect : String) (includeGenerated : Bool) : CommandM Report := do
  let dialect ← dialectOf dialect
  let archivePath ← openArchive path
  let request : ExportRequest :=
    { address := .assembly archivePath entry, dialect, outputDirectory := output, includeGenerated }
  let outcome ← modifyGet fun navigator : Navigator => (navigator.exportAssembly request).swap
  let summary := toString outcome.filesWritten ++ " file(s) written to " ++ outcome.outputDirectory
    ++ ", " ++ toString outcome.errorCount ++ " error(s)"
  return {
    output := present options outcome.toJson (unlines (summary :: outcome.errorMessage.toList))
    failure := if outcome.succeeded then none else some "export failed" }

/-- Runs a command that shows something once; the server shows nothing by itself. -/
def runCommand (options : GlobalOptions) : Command → CommandM Report
  | .serve restore => do
      if restore then modify fun navigator => navigator.restoreSession.1
      return {}
  | .tree paths depth => showTree options paths depth
  | .text path query dialect => showText options path query dialect
  | .search query paths => showMatches options query paths
  | .exportAssembly path output entry dialect includeGenerated =>
      writeSources options path output entry dialect includeGenerated

def start (options : GlobalOptions) (command : Command) (files : FileSystem) :
    Navigator × Report :=
  match navigatorFor options files with
  | .error failure => ({ files }, { failure := some failure })
  | .ok navigator =>
      match (runCommand options command).run.run navigator with
      | (.ok report, navigator) => (navigator, report)
      | (.error failure, navigator) => (navigator, { failure := some failure })

end AssemblyBrowser.CommandLine
