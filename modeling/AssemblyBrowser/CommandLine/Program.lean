import AssemblyBrowser.CommandLine.Run
import AssemblyBrowser.CommandLine.Server

/-!
# The program

The whole program as a function of its words, the files that are there and the
lines of its input.
-/

namespace AssemblyBrowser.CommandLine

/-- What a run of the program shows and leaves. -/
structure ProgramRun where
  /-- Whether all went well: 0, the command failed: 1, or the command line is wrong: 2. -/
  status : Nat
  output : String := ""
  /-- What went wrong. -/
  complaint : Option String := none
  files : FileSystem

/-- Runs the program. The server starts only when nothing failed before. -/
def runProgram (args : List String) (files : FileSystem) (input : List String) : ProgramRun :=
  match Invocation.parse args with
  | .error error => { status := 2, complaint := some error.message, files }
  | .ok .help => { status := 0, output := usage, files }
  | .ok .version => { status := 0, output := unlines [versionLine], files }
  | .ok (.run options command) =>
      let (navigator, report) := start options command files
      match report.failure, command with
      | some failure, _ =>
          { status := 1, output := report.output, complaint := some failure
            files := navigator.files }
      | none, .serve _ =>
          let (navigator, lines) := Server.replies navigator input
          { status := 0, output := unlines lines, files := navigator.files }
      | none, _ => { status := 0, output := report.output, files := navigator.files }

end AssemblyBrowser.CommandLine
