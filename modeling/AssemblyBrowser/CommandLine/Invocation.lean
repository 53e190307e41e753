import AssemblyBrowser.CommandLine.Options
import AssemblyBrowser.Listing.Basic
import AssemblyBrowser.Text.Numeral

/-!
# Invocations

What a command line asks for: a command with its operands, and the options that
every command has. Those may stand in front of the command or behind it, where
they count more.
-/

namespace AssemblyBrowser.CommandLine

/-- The options that every command has. -/
structure GlobalOptions where
  json : Bool := false
  verbose : Bool := false
  session : Option String := none
  searchThreads : Nat := 0
  autoLoad : Bool := true
  searchPaths : List String := []

/-- A command. -/
inductive Command where
  /-- Answers requests, one on each line. -/
  | serve (restore : Bool)
  /-- Shows the nodes of archives. -/
  | tree (paths : List String) (depth : Nat)
  /-- Shows the text of an archive, or of the first match of a query. -/
  | text (path : String) (query : Option String) (dialect : String)
  /-- Lists the matches of a query. -/
  | search (query : String) (paths : List String)
  /-- Writes an assembly as source files. -/
  | exportAssembly (path output : String) (entry : Option String) (dialect : String)
      (includeGenerated : Bool)

/-- What a command line asks for. -/
inductive Invocation where
  | help
  | version
  | run (options : GlobalOptions) (command : Command)

def versionLine : String := "assembly-browser 0.1.0"

def usage : String :=
  "Browses, renders, searches and exports .NET assemblies, packages and bundles.\n\n"
    ++ "Usage: assembly-browser [OPTIONS] COMMAND\n\n"
    ++ "Commands:\n"
    ++ "  serve [--restore]\n"
    ++ "  tree [-d DEPTH] FILE...\n"
    ++ "  text [-d DIALECT] FILE [QUERY]\n"
    ++ "  search -q QUERY FILE...\n"
    ++ "  export -o DIR [--entry PATH] [-d DIALECT] [--include-compiler-generated] FILE\n\n"
    ++ "Options:\n"
    ++ "  --json\n"
    ++ "  -v, --verbose\n"
    ++ "  --session FILE\n"
    ++ "  --search-threads COUNT\n"
    ++ "  --no-auto-load\n"
    ++ "  --search-path DIR\n"

def Command.archives : Command → List String
  | .serve _ => []
  | .tree paths _ => paths
  | .text path _ _ => [path]
  | .search _ paths => paths
  | .exportAssembly path _ _ _ _ => [path]

def Command.outputDirectory? : Command → Option String
  | .exportAssembly _ output _ _ _ => some output
  | _ => none

/-- The forms of the options that every command has. -/
def globalForms : List OptionForm :=
  [{ name := "json" }, { name := "verbose", letter := some 'v' },
    { name := "session", takesValue := true }, { name := "search-threads", takesValue := true },
    { name := "no-auto-load" }, { name := "search-path", takesValue := true, repeats := true },
    { name := "help", letter := some 'h' }]

def dialectForm : OptionForm := { name := "dialect", letter := some 'd', takesValue := true }

def commandForms? : String → Option (List OptionForm)
  | "serve" => some [{ name := "restore" }]
  | "tree" => some [{ name := "depth", letter := some 'd', takesValue := true }]
  | "text" => some [dialectForm]
  | "search" => some [{ name := "query", letter := some 'q', takesValue := true }]
  | "export" =>
      some [{ name := "output", letter := some 'o', takesValue := true },
        { name := "entry", takesValue := true }, dialectForm,
        { name := "include-compiler-generated" }]
  | _ => none

def path (name value : String) : Except UsageError String :=
  if value.isEmpty then .error (.emptyPath name) else .ok value

def number (words : Words) (name : String) : Except UsageError (Option Nat) :=
  match words.value? name with
  | none => .ok none
  | some value =>
      match Numeral.unsigned? 10 64 value.toList with
      | some n => .ok (some n)
      | none => .error (.invalidNumber name value)

def GlobalOptions.update (options : GlobalOptions) (words : Words) :
    Except UsageError GlobalOptions := do
  let session ← (words.value? "session").mapM (path "session")
  let searchThreads ← number words "search-threads"
  let searchPaths ← (words.values "search-path").mapM (path "search-path")
  return {
    json := options.json || words.has "json"
    verbose := options.verbose || words.has "verbose"
    session := session <|> options.session
    searchThreads := searchThreads.getD options.searchThreads
    autoLoad := options.autoLoad && !words.has "no-auto-load"
    searchPaths := if searchPaths.isEmpty then options.searchPaths else searchPaths }

/-- The operands as paths, of which there has to be one. -/
def paths (words : Words) : Except UsageError (List String) :=
  if words.operands.isEmpty then .error (.missingOperand "FILE")
  else words.operands.mapM (path "FILE")

def required (words : Words) (name : String) : Except UsageError String :=
  match words.value? name with
  | some value => .ok value
  | none => .error (.missingOption name)

def dialectName (words : Words) : String := (words.value? "dialect").getD Dialect.standard.name

def Command.ofWords (name : String) (words : Words) : Except UsageError Command := do
  match name, words.operands with
  | "serve", [] => return .serve (words.has "restore")
  | "serve", operand :: _ => throw (.unexpectedOperand operand)
  | "tree", _ => return .tree (← paths words) ((← number words "depth").getD 2)
  | "search", _ => return .search (← required words "query") (← paths words)
  | "text", [] => throw (.missingOperand "FILE")
  | "text", [file] => return .text (← path "FILE" file) none (dialectName words)
  | "text", [file, query] => return .text (← path "FILE" file) (some query) (dialectName words)
  | "text", _ :: _ :: operand :: _ => throw (.unexpectedOperand operand)
  | "export", [] => throw (.missingOperand "FILE")
  | "export", [file] =>
      return .exportAssembly (← path "FILE" file)
        (← path "output" (← required words "output")) (words.value? "entry") (dialectName words)
        (words.has "include-compiler-generated")
  | "export", _ :: operand :: _ => throw (.unexpectedOperand operand)
  | other, _ => throw (.unknownCommand other)

namespace Invocation

def parse (args : List String) : Except UsageError Invocation := do
  let words ← parseWords ({ name := "version", letter := some 'V' } :: globalForms) true args
  if words.has "help" then return help
  if words.has "version" then return version
  match words.rest with
  | [] => throw .missingCommand
  | ["help"] => return help
  | "help" :: name :: _ =>
      if name = "help" || (commandForms? name).isSome then return help
      else throw (.unknownCommand name)
  | name :: args =>
      match commandForms? name with
      | none => throw (.unknownCommand name)
      | some forms =>
          let options ← GlobalOptions.update {} words
          let words ← parseWords (forms ++ globalForms) false args
          if words.has "help" then return help
          return run (← options.update words) (← Command.ofWords name words)

end Invocation

/-- The dialect of a name. Short names are understood in whatever case. -/
def dialect? (name : String) : Option Dialect :=
  let short := String.ofList (name.toList.map Char.toLower)
  if short = "il" then some .il
  else if ["cs", "c#", "csharp"].contains short then some .csharpLatest
  else Dialect.ofName? name

end AssemblyBrowser.CommandLine
