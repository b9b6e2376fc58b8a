import LuaGlobals.CommandLine.Run

/-! # The program

Gathers the files that a command line may look at, runs it, and prints what it shows. Text for the
console is printed with its markup. Other programs are never started, so the program checks
listings (`--listing`), not sources.
-/

namespace LuaGlobals.CommandLine

/-- The place that an absolute path spells. -/
def absolutePlace (path : String) : Place :=
  (FilePath.ofString path).parts

/-- The file at an absolute path, if it holds text. -/
def gatherFile (path : String) : IO (List (Place × FileEntry)) := do
  try return [(absolutePlace path, .file (← IO.FS.readFile path))]
  catch _ => return []

/-- The file or directory at an absolute path and all below it. Links to directories are not
followed. -/
partial def gatherTree (path : String) : IO (List (Place × FileEntry)) := do
  try
    let found ← IO.FS.realPath path
    if ← found.isDir then
      if found.toString != path then return [(absolutePlace path, .directory)]
      let below ← (← found.readDir).toList.mapM fun child => gatherTree child.path.toString
      return (absolutePlace path, .directory) :: below.flatten
    else gatherFile path
  catch _ => return []

/-- The project files that may count for a path: those in the directories above it. -/
def gatherProjects (path : FilePath) : IO (List (Place × FileEntry)) := do
  let files := path.selfAndParents.map fun directory =>
    (directory.join (.ofString projectFileName)).toString
  return (← files.mapM gatherFile).flatten

/-- The files and directories that a command line may look at: the working directory, what the
arguments name, and the project files above these. -/
def gather (arguments : List String) : IO FileTree := do
  let current := FilePath.ofString (← IO.currentDir).toString
  let roots := current :: arguments.map fun argument =>
    (current.join (.ofString argument)).normalize current.parts
  let trees ← roots.eraseDups.mapM fun path => gatherTree path.toString
  let projects ← roots.eraseDups.mapM gatherProjects
  let entries := Keyed.putAll [] (trees.flatten ++ projects.flatten)
  return { workingDirectory := current.parts, entries }

/-- What the program says instead of running the compiler. -/
def notCompiled : ProcessResult :=
  .notStarted "this program reads listings only"

/-- The line about a command that breaks off. -/
def Failure.message : Failure → String
  | .config (.invalid errors) =>
    "invalid configuration: " ++ ", ".intercalate (errors.map fun error =>
      ".".intercalate error.location ++ " (" ++ error.cause.label ++ ")")
  | .config .notTexts => "invalid configuration: not a list of texts"
  | .config .notTable => "invalid configuration: not a table"
  | .whitelist (.unreadable _) => "a whitelist cannot be read"
  | .whitelist .notJson => "a whitelist is not JSON"
  | .whitelist (.notObject path typeName) => Whitelist.notObjectMessage path typeName
  | .listing _ => "a listing cannot be read"

/-- The lines for something printed to the console. -/
def printedLines : Printed → List String
  | .text markup => [markup]
  | .table title columns rows => title :: (columns :: rows).map " | ".intercalate

/-- Makes an effect happen. Files were read when they were gathered, and no other program runs. -/
def carryOut : Effect → IO Unit
  | .log record => IO.eprintln (record.level.label ++ " " ++ record.message)
  | .print printed => (printedLines printed).forM IO.println
  | .output text => IO.print text
  | .execute _ | .probe _ | .read _ => return

/-- Shows the outcome of a command line and gives its exit code. -/
def display (outcome : Outcome) : IO UInt32 := do
  outcome.effects.forM carryOut
  match outcome.exit with
  | .ok code => return code.toUInt32
  | .error failure =>
    IO.eprintln failure.message
    return 1

end LuaGlobals.CommandLine

open LuaGlobals.CommandLine in
/-- Runs the command line that the program is started with. -/
def main (arguments : List String) : IO UInt32 := do
  display (run { tree := ← gather arguments, compile := fun _ => notCompiled } arguments)
