import AssemblyBrowser.CommandLine.Program

/-!
# The command line

Shows the program the files that it asks for, and puts what it writes on the
disk. What it does with them is decided elsewhere.
-/

namespace AssemblyBrowser.CommandLine

/-- The files with the directory in which the program was started. -/
def filesOfDisk : IO FileSystem := do
  let directory := (← IO.currentDir).toString
  let files := ((({} : FileSystem).createDirectories directory).toOption).getD {}
  return { files with workingDirectory := ((files.locate directory).toOption).getD [] }

/-- The files with the one that a path leads to, or with the directory. -/
def reveal (files : FileSystem) (path : String) : IO FileSystem := do
  match ← (IO.FS.readBinFile path).toBaseIO with
  | .ok content => return ((files.writeThrough path content.data).toOption).getD files
  | .error _ =>
      match ← (IO.FS.realPath path).toBaseIO with
      | .ok found =>
          if ← found.isDir then return ((files.createDirectories path).toOption).getD files
          else return files
      | .error _ => return files

/-- The files with those of a directory that can be modules. -/
def revealModules (files : FileSystem) (directory : String) : IO FileSystem := do
  let directory := if directory.isEmpty then "." else directory
  match ← (do (← IO.FS.realPath directory).readDir).toBaseIO with
  | .error _ => return files
  | .ok entries =>
      let names := (entries.map (·.fileName)).filter fun name =>
        Path.hasExtension name Resolver.extensions
      names.foldlM (fun files name => reveal files (Path.join directory name))
        (← reveal files directory)

/-- The files with an archive and with what it may refer to. -/
def revealArchive (files : FileSystem) (path : String) : IO FileSystem := do
  match Path.parent? path with
  | some directory => reveal (← revealModules files directory) path
  | none => reveal files path

def revealFor (options : GlobalOptions) (command : Command) (files : FileSystem) :
    IO FileSystem := do
  let files ← options.searchPaths.foldlM revealModules files
  let files ← options.session.toList.foldlM reveal files
  let restored := options.session.toList.flatMap fun path =>
    ((Session.load files path).toOption).getD []
  let archives :=
    match command with
    | .serve _ => restored
    | command => command.archives
  let files ← archives.foldlM revealArchive files
  command.outputDirectory?.toList.foldlM reveal files

def store (before after : FileSystem) : IO Unit := do
  for (place, entry) in after.changesSince before do
    let path := FileSystem.placeText place
    match entry with
    | .directory => IO.FS.createDirAll path
    | .file content => IO.FS.writeBinFile path ⟨content⟩

/-- Answers the lines of the input until there are none or one of them stops the server. -/
partial def serve (input output : IO.FS.Stream) (navigator : Navigator) : IO Unit := do
  let line ← input.getLine
  if line.isEmpty then return
  let files ← (Server.pathsIn line).foldlM revealArchive navigator.files
  let reply := Server.reply { navigator with files } line
  store files reply.navigator.files
  if let some text := reply.line then
    output.putStrLn text
    output.flush
  if !reply.stops then serve input output reply.navigator

/-- Runs the program on the words of its command line. -/
def runOnDisk (args : List String) : IO UInt32 := do
  let files ← filesOfDisk
  let revealed ←
    match Invocation.parse args with
    | .ok (.run options command) => revealFor options command files
    | _ => pure files
  let result := runProgram args revealed []
  store revealed result.files
  IO.print result.output
  if let some complaint := result.complaint then IO.eprintln ("Error: " ++ complaint)
  match Invocation.parse args with
  | .ok (.run options (.serve restore)) =>
      let (navigator, report) := start options (.serve restore) revealed
      if report.failure.isNone then serve (← IO.getStdin) (← IO.getStdout) navigator
  | _ => pure ()
  return UInt32.ofNat result.status

end AssemblyBrowser.CommandLine

def main (args : List String) : IO UInt32 := AssemblyBrowser.CommandLine.runOnDisk args
